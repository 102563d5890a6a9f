import DvbHost.Proofs.Crc32.BitSerial

/-!
# What the checksum finds

Two byte strings that leave the same register differ by bits that leave an empty register empty. A
run of at most 32 bits that are not all zero never does: a step that leaves a zero at the lower end
of the register has taken nothing off it, so bits that empty the register in at most 32 steps were in
its upper end already, and the zeros behind them only move it up. So octets that were found right
are found wrong when bits of them are changed that lie within 32 places of each other.
-/

namespace DvbHost.Crc32

set_option autoImplicit false

variable {r : UInt32} {c : Bool} {cs : List Bool} {n : Nat}

/-! ## Bits that empty the register -/

theorem toNat_shiftLeft_one (r : UInt32) : (r <<< 1).toNat = r.toNat * 2 % 2 ^ 32 := by
  rw [UInt32.toNat_shiftLeft, Nat.shiftLeft_eq]
  rfl

/-- A register that is even after a step was not reduced in it. -/
theorem stepBit_of_even (even : (stepBit r c).toNat % 2 = 0) :
    topBit r = c ∧ stepBit r c = r <<< 1 := by
  have hstep := stepBit_eq r c
  cases hdiffers : topBit r ^^ c with
  | false =>
    rw [hdiffers] at hstep
    refine ⟨by simpa using hdiffers, ?_⟩
    rw [hstep]
    exact UInt32.xor_zero
  | true =>
    rw [hdiffers] at hstep
    have hodd : (reduction true).toNat % 2 = 1 := rfl
    rw [hstep, UInt32.toNat_xor, Nat.xor_mod_two_eq, toNat_shiftLeft_one] at even
    omega

/-- A register that `n` bits empty holds nothing below its upper `n` bits. -/
theorem low_of_feed_eq_zero (hlength : cs.length ≤ 32) (h : feed r cs = 0) :
    2 ^ (32 - cs.length) ∣ r.toNat := by
  induction cs generalizing r with
  | nil =>
    have hr : r = 0 := h
    rw [hr]
    exact Nat.dvd_zero _
  | cons c cs ih =>
    rw [List.length_cons] at hlength ⊢
    have hlow := ih (by omega) h
    have hpow : 32 - cs.length = 32 - (cs.length + 1) + 1 := by omega
    rw [hpow, Nat.pow_succ] at hlow
    have heven := Nat.mod_eq_zero_of_dvd (Nat.dvd_trans (Nat.dvd_mul_left 2 _) hlow)
    rw [(stepBit_of_even heven).2, toNat_shiftLeft_one] at hlow
    have hword : 2 ^ (32 - (cs.length + 1)) * 2 ∣ 2 ^ 32 := by
      rw [← Nat.pow_succ]
      exact Nat.pow_dvd_pow 2 (by omega)
    exact Nat.dvd_of_mul_dvd_mul_right Nat.two_pos ((Nat.dvd_mod_iff hword).mp hlow)

/-- No more bits than the register holds leave it empty, but zeros. -/
theorem eq_zeros_of_feed_eq_zero (hlength : cs.length ≤ 32) (h : feed 0 cs = 0) :
    cs = zeros cs.length := by
  induction cs with
  | nil => rfl
  | cons c cs ih =>
    rw [List.length_cons] at hlength
    have hlow := low_of_feed_eq_zero (by omega) (feed_cons 0 c cs ▸ h)
    have hpow : 32 - cs.length = 31 - cs.length + 1 := by omega
    rw [hpow, Nat.pow_succ] at hlow
    have heven := Nat.mod_eq_zero_of_dvd (Nat.dvd_trans (Nat.dvd_mul_left 2 _) hlow)
    obtain ⟨hc, hstep⟩ := stepBit_of_even heven
    have hfalse : c = false := hc.symm
    rw [feed_cons, hstep] at h
    rw [hfalse]
    exact congrArg (List.cons false) (ih (by omega) h)

/-- Zeros do not empty a register. -/
theorem eq_zero_of_feed_zeros (h : feed r (zeros n) = 0) : r = 0 := by
  induction n generalizing r with
  | zero => exact h
  | succ n ih =>
    have hzero : stepBit r false = 0 := ih h
    obtain ⟨htop, hstep⟩ := stepBit_of_even (r := r) (c := false) (by rw [hzero]; rfl)
    rw [topBit_eq, decide_eq_false_iff_not] at htop
    have hnat := congrArg UInt32.toNat (hstep ▸ hzero)
    rw [toNat_shiftLeft_one] at hnat
    apply UInt32.toNat_inj.mp
    change r.toNat = 0
    change _ = 0 at hnat
    omega

theorem feed_zero_zeros (n : Nat) : feed 0 (zeros n) = 0 := by
  apply UInt32.toNat_inj.mp
  rw [feed_zeros_of_lt (by rw [UInt32.toNat_zero, Nat.zero_mul]; exact Nat.two_pow_pos 32)]
  exact Nat.zero_mul _

/-- A run of at most 32 bits among zeros leaves an empty register empty only if it is zeros too. -/
theorem burst_eq_zeros {before after : Nat} (hlength : cs.length ≤ 32)
    (h : feed 0 (zeros before ++ (cs ++ zeros after)) = 0) : cs = zeros cs.length := by
  rw [feed_append, feed_zero_zeros, feed_append] at h
  exact eq_zeros_of_feed_eq_zero hlength (eq_zero_of_feed_zeros h)

/-! ## Bits of octets -/

theorem octetBits_injective : Function.Injective octetBits := by
  intro a b h
  have hbit : ∀ i < 8, a.toNat.testBit i = b.toNat.testBit i := by
    simp only [octetBits, List.map_cons, List.map_nil, List.cons.injEq, and_true] at h
    intro i hi
    interval_cases i <;> simp_all
  apply UInt8.toNat_inj.mp
  refine Nat.eq_of_testBit_eq fun i => ?_
  by_cases hi : i < 8
  · exact hbit i hi
  · have hpow : 2 ^ 8 ≤ 2 ^ i := Nat.pow_le_pow_right Nat.two_pos (Nat.not_lt.mp hi)
    rw [Nat.testBit_lt_two_pow (Nat.lt_of_lt_of_le a.toNat_lt hpow),
      Nat.testBit_lt_two_pow (Nat.lt_of_lt_of_le b.toNat_lt hpow)]

theorem bitsOf_cons (b : UInt8) (data : Bytes) : bitsOf (b :: data) = octetBits b ++ bitsOf data :=
  List.flatMap_cons

theorem length_bitsOf (data : Bytes) : (bitsOf data).length = 8 * data.length := by
  induction data with
  | nil => rfl
  | cons b data ih =>
    rw [bitsOf_cons, List.length_append, ih, List.length_cons]
    change 8 + _ = _
    omega

theorem bitsOf_injective : Function.Injective bitsOf := by
  intro s t h
  induction s generalizing t with
  | nil =>
    have hlength := congrArg List.length h
    rw [length_bitsOf, length_bitsOf] at hlength
    exact (List.eq_nil_of_length_eq_zero (by simpa using hlength.symm)).symm
  | cons b s ih =>
    cases t with
    | nil =>
      have hlength := congrArg List.length h
      rw [length_bitsOf, length_bitsOf] at hlength
      cases hlength
    | cons b' t =>
      rw [bitsOf_cons, bitsOf_cons] at h
      obtain ⟨hb, hs⟩ := List.append_inj h rfl
      rw [octetBits_injective hb, ih hs]

/-! ## Differences -/

/-- Where two bit strings differ. -/
def difference (cs cs' : List Bool) : List Bool := List.zipWith (· ^^ ·) cs cs'

variable {cs' : List Bool}

theorem difference_self (cs : List Bool) : difference cs cs = zeros cs.length := by
  induction cs with
  | nil => rfl
  | cons c cs ih => exact congrArg₂ List.cons (Bool.xor_self c) ih

theorem eq_of_difference_eq_zeros (hlength : cs.length = cs'.length)
    (h : difference cs cs' = zeros cs.length) : cs = cs' := by
  induction cs generalizing cs' with
  | nil => exact (List.eq_nil_of_length_eq_zero hlength.symm).symm
  | cons c cs ih =>
    cases cs' with
    | nil => cases hlength
    | cons c' cs' =>
      obtain ⟨hc, hcs⟩ := List.cons.inj h
      have hc' : c = c' := by simpa using hc
      rw [hc', ih (Nat.succ.inj hlength) hcs]

theorem difference_append {as bs : List Bool} (hlength : as.length = bs.length) :
    difference (as ++ cs) (bs ++ cs') = difference as bs ++ difference cs cs' :=
  List.zipWith_append hlength

/-- Bit strings that leave the same register are the same if they differ in at most 32 bits in a
row. -/
theorem eq_of_feed_append_eq {before after : List Bool} (hlength : cs.length = cs'.length)
    (hburst : cs.length ≤ 32)
    (h : feed r (before ++ (cs ++ after)) = feed r (before ++ (cs' ++ after))) : cs = cs' := by
  have hwhole : (before ++ (cs ++ after)).length = (before ++ (cs' ++ after)).length := by
    simp only [List.length_append, hlength]
  have hzero : feed 0 (difference (before ++ (cs ++ after)) (before ++ (cs' ++ after))) = 0 := by
    have hxor := feed_xor hwhole r r
    rwa [h, UInt32.xor_self, UInt32.xor_self] at hxor
  rw [difference_append rfl, difference_append hlength, difference_self, difference_self] at hzero
  have hshort : (difference cs cs').length = cs.length := by
    rw [difference, List.length_zipWith, ← hlength, Nat.min_self]
  have hzeros := burst_eq_zeros (hshort ▸ hburst) hzero
  rw [hshort] at hzeros
  exact eq_of_difference_eq_zeros hlength hzeros

/-- Bit strings that leave the same register are the same if they agree outside of 32 places. -/
theorem eq_of_feed_eq {p : Nat} (hlength : cs.length = cs'.length)
    (hburst : ∀ i, cs[i]? ≠ cs'[i]? → p ≤ i ∧ i < p + 32) (h : feed r cs = feed r cs') :
    cs = cs' := by
  have hbefore : cs.take p = cs'.take p := by
    refine List.ext_getElem? fun i => ?_
    rw [List.getElem?_take, List.getElem?_take]
    split
    · by_contra hne
      have := hburst i hne
      omega
    · rfl
  have hafter : (cs.drop p).drop 32 = (cs'.drop p).drop 32 := by
    refine List.ext_getElem? fun i => ?_
    rw [List.drop_drop, List.drop_drop, List.getElem?_drop, List.getElem?_drop]
    by_contra hne
    have := hburst _ hne
    omega
  have hwindow : ((cs.drop p).take 32).length = ((cs'.drop p).take 32).length := by
    rw [List.length_take, List.length_take, List.length_drop, List.length_drop, hlength]
  rw [← List.take_append_drop p cs, ← List.take_append_drop 32 (cs.drop p),
    ← List.take_append_drop p cs', ← List.take_append_drop 32 (cs'.drop p), ← hbefore, ← hafter]
    at h ⊢
  rw [eq_of_feed_append_eq hwindow (List.length_take_le ..) h]

/-- Octets that were found right are found wrong when bits of them are changed, all within some 32
consecutive places. -/
theorem verify_eq_false_of_burst {s t : Bytes} (hs : verify s = true)
    (hlength : t.length = s.length) (hne : t ≠ s) {p : Nat}
    (hburst : ∀ i, (bitsOf s)[i]? ≠ (bitsOf t)[i]? → p ≤ i ∧ i < p + 32) : verify t = false := by
  by_contra hverify
  have ht : verify t = true := Bool.of_not_eq_false hverify
  rw [verify, checksum, foldl_step_eq, beq_iff_eq] at hs ht
  have hbits : (bitsOf s).length = (bitsOf t).length := by
    rw [length_bitsOf, length_bitsOf, hlength]
  exact hne (bitsOf_injective (eq_of_feed_eq hbits hburst (hs.trans ht.symm))).symm

/-- A section for programs with its checksum. -/
def onePat : Bytes :=
  [0x00, 0xB0, 0x0D, 0x00, 0x01, 0xC1, 0x00, 0x00, 0x00, 0x01, 0xE1, 0x00, 0xE8, 0xF9, 0x5E, 0x7D]

/-- The same with some bits changed, the first and the last of them 31 places apart. -/
def burstPat : Bytes :=
  [0x00, 0xB0, 0x0D, 0x01, 0xA6, 0xC1, 0x31, 0xFE, 0x00, 0x01, 0xE1, 0x00, 0xE8, 0xF9, 0x5E, 0x7D]

theorem verify_eq_false_of_burst_pat :
    verify onePat = true ∧ burstPat.length = onePat.length ∧ burstPat ≠ onePat ∧
      (∀ i, (bitsOf onePat)[i]? ≠ (bitsOf burstPat)[i]? → 31 ≤ i ∧ i < 31 + 32) ∧
      verify burstPat = false := by
  have hs : verify onePat = true := by decide +kernel
  have hne : burstPat ≠ onePat := by decide
  have hburst : ∀ i, (bitsOf onePat)[i]? ≠ (bitsOf burstPat)[i]? → 31 ≤ i ∧ i < 31 + 32 := by
    have hinside : ∀ i < 128, (bitsOf onePat)[i]? ≠ (bitsOf burstPat)[i]? →
        31 ≤ i ∧ i < 31 + 32 := by decide +kernel
    intro i hi
    by_cases hlt : i < 128
    · exact hinside i hlt hi
    · have hlength : (bitsOf onePat).length = 128 ∧ (bitsOf burstPat).length = 128 :=
        ⟨length_bitsOf onePat, length_bitsOf burstPat⟩
      rw [List.getElem?_eq_none (by omega), List.getElem?_eq_none (by omega)] at hi
      exact absurd rfl hi
  exact ⟨hs, rfl, hne, hburst, verify_eq_false_of_burst hs rfl hne hburst⟩

end DvbHost.Crc32
