import DvbHost.Calendar.Bcd
import DvbHost.Crc32
import DvbHost.Proofs.Checked.Basic

/-!
# Numbers and checksums with faults

Numbers of several octets, numbers in decimal digits and the checksum, as a receiver computes them
that takes octets by their index and counts in words of 8, 16 and 32 bits. None of them faults.
-/

namespace DvbHost

set_option autoImplicit false

namespace Checked

variable {bs : Bytes} {count : Nat}

/-- The number of the first `count` octets. -/
def number (count : Nat) (bs : Bytes) : Checked Nat := do
  return Bytes.number (← (List.range count).mapM (octet bs))

theorem octet_eq {i : Nat} (h : i < bs.length) : octet bs i = .ok bs[i] := by
  rw [octet, List.getElem?_eq_getElem h]

theorem number_eq (h : bs.length = count) : number count bs = .ok bs.number := by
  have hoctets : (List.range count).mapM (octet bs) =
      .ok ((List.range count).map fun i => bs.getD i 0) := by
    apply mapM_eq
    intro i hi
    have hlt : i < bs.length := by rw [h]; exact List.mem_range.mp hi
    rw [octet_eq hlt, List.getD_eq_getElem bs 0 hlt]
  have hall : ((List.range count).map fun i => bs.getD i 0) = bs := by
    subst h
    apply List.ext_getElem
    · rw [List.length_map, List.length_range]
    · intro i _ hi
      rw [List.getElem_map, List.getElem_range, List.getD_eq_getElem bs 0 hi]
  rw [number, hoctets, hall]
  rfl

/-! ## Decimal digits -/

/-- The two digits of an octet, computed in octets. -/
def digits (b : UInt8) : Checked Nat := do
  let tens ← word 8 (b.toNat / 16 * 10)
  word 8 (tens + b.toNat % 16)

theorem value_le (b : UInt8) : Bcd.value b ≤ 165 := by
  have hb := b.toNat_lt
  rw [Bcd.value]
  omega

theorem digits_eq (b : UInt8) : digits b = .ok (Bcd.value b) := by
  have hb := b.toNat_lt
  rw [digits, word_eq (by omega)]
  exact word_eq (by omega)

/-- One more digit behind a number, in a word of 32 bits. -/
def pushDigit (acc digit : Nat) : Checked Nat := do
  let shifted ← word 32 (acc * 10)
  word 32 (shifted + digit)

/-- The digit of a half octet. -/
def half (bs : Bytes) (i : Nat) : Checked Nat := do
  let b ← octet bs (i / 2)
  return if i % 2 = 0 then b.toNat / 16 else b.toNat % 16

/-- The number of the first `count` half octets. -/
def decimal (count : Nat) (bs : Bytes) : Checked Nat :=
  (List.range count).foldlM (fun acc i => do pushDigit acc (← half bs i)) 0

/-- A half octet is at most 15, so each digit takes the number at most that far. -/
theorem pushDigits_eq {ds : List Nat} (acc : Nat) (hds : ∀ d ∈ ds, d ≤ 15)
    (hfits : (acc + 2) * 10 ^ ds.length ≤ 2 ^ 32) :
    ds.foldlM pushDigit acc = .ok (ds.foldl (fun acc d => acc * 10 + d) acc) ∧
      ds.foldl (fun acc d => acc * 10 + d) acc + 2 ≤ (acc + 2) * 10 ^ ds.length := by
  induction ds generalizing acc with
  | nil => exact ⟨rfl, by simp⟩
  | cons d ds ih =>
    have hd := hds d List.mem_cons_self
    have hpow : (acc + 2) * 10 ^ (d :: ds).length = (acc + 2) * 10 * 10 ^ ds.length := by
      rw [List.length_cons, Nat.pow_succ']
      ring
    have hstep : (acc * 10 + d + 2) * 10 ^ ds.length ≤ (acc + 2) * 10 * 10 ^ ds.length :=
      Nat.mul_le_mul_right _ (by omega)
    rw [hpow] at hfits ⊢
    have hone : 0 < 10 ^ ds.length := Nat.pow_pos (by decide)
    have hbound : acc * 10 + d + 2 ≤ 2 ^ 32 :=
      Nat.le_trans (Nat.le_mul_of_pos_right _ hone) (Nat.le_trans hstep hfits)
    obtain ⟨hrest, hvalue⟩ := ih (acc * 10 + d) (fun e he => hds e (List.mem_cons_of_mem d he))
      (Nat.le_trans hstep hfits)
    have hpush : pushDigit acc d = .ok (acc * 10 + d) := by
      rw [pushDigit, word_eq (by omega)]
      exact word_eq (by omega)
    refine ⟨?_, Nat.le_trans hvalue hstep⟩
    rw [List.foldlM_cons, hpush]
    exact hrest

end Checked

namespace Bcd

variable {bs : Bytes}

theorem length_halves (bs : Bytes) : (halves bs).length = 2 * bs.length := by
  induction bs with
  | nil => rfl
  | cons b bs ih =>
    change (halves bs).length + 1 + 1 = 2 * (bs.length + 1)
    rw [ih]
    omega

theorem halves_le {d : Nat} (h : d ∈ halves bs) : d ≤ 15 := by
  obtain ⟨b, -, hd⟩ := List.mem_flatMap.mp h
  have hb := b.toNat_lt
  simp only [List.mem_cons, List.not_mem_nil, or_false] at hd
  omega

theorem getElem?_halves (bs : Bytes) (i : Nat) :
    (halves bs)[i]? =
      bs[i / 2]?.map fun b => if i % 2 = 0 then b.toNat / 16 else b.toNat % 16 := by
  induction bs generalizing i with
  | nil => rfl
  | cons b bs ih =>
    match i with
    | 0 => rfl
    | 1 => rfl
    | i + 2 =>
      change (halves bs)[i]? = _
      rw [ih i, Nat.add_mod_right, Nat.add_div_right i (by decide)]
      rfl

end Bcd

namespace Checked

variable {bs : Bytes} {count : Nat}

theorem half_eq {i d : Nat} (h : (Bcd.halves bs)[i]? = some d) : half bs i = .ok d := by
  rw [Bcd.getElem?_halves, Option.map_eq_some_iff] at h
  obtain ⟨b, hb, rfl⟩ := h
  rw [half, octet, hb]
  rfl

theorem foldlM_halves {is ds : List Nat}
    (h : List.Forall₂ (fun i d => half bs i = .ok d) is ds) (acc : Nat) :
    is.foldlM (fun acc i => do pushDigit acc (← half bs i)) acc = ds.foldlM pushDigit acc := by
  induction h generalizing acc with
  | nil => rfl
  | cons hd _ ih =>
    rw [List.foldlM_cons, List.foldlM_cons, hd]
    exact bind_congr ih

/-- The half octets are those at the indices that are looked at. -/
theorem decimal_eq_foldlM (hlength : count ≤ 2 * bs.length) :
    decimal count bs = ((Bcd.halves bs).take count).foldlM pushDigit 0 := by
  have htake : ((Bcd.halves bs).take count).length = count := by
    rw [List.length_take, Bcd.length_halves, Nat.min_eq_left hlength]
  apply foldlM_halves
  rw [List.forall₂_iff_get]
  refine ⟨by rw [List.length_range, htake], fun i _ hi => half_eq ?_⟩
  simp only [List.get_eq_getElem, List.getElem_range, List.getElem_take]
  exact List.getElem?_eq_getElem _

variable (count bs) in
theorem digits_le : ∀ d ∈ (Bcd.halves bs).take count, d ≤ 15 :=
  fun _ hd => Bcd.halves_le (List.mem_of_mem_take hd)

/-- Up to eight half octets are read without a fault, and the number has no more digits. -/
theorem decimal_fits (hlength : count ≤ 2 * bs.length) (hcount : count ≤ 8) :
    decimal count bs = .ok (Bcd.number count bs) ∧ Bcd.number count bs + 2 ≤ 2 * 10 ^ count := by
  have htake : ((Bcd.halves bs).take count).length = count := by
    rw [List.length_take, Bcd.length_halves, Nat.min_eq_left hlength]
  have hpow : 10 ^ count ≤ 10 ^ 8 := Nat.pow_le_pow_right (by decide) hcount
  have h := pushDigits_eq 0 (digits_le bs count) (by rw [htake]; omega)
  rw [htake, Nat.zero_add] at h
  rw [decimal_eq_foldlM hlength]
  exact h

theorem decimal_eq (hlength : count ≤ 2 * bs.length) (hcount : count ≤ 8) :
    decimal count bs = .ok (Bcd.number count bs) :=
  (decimal_fits hlength hcount).1

/-! ## The checksum -/

/-- The register after one more octet; the word is looked up by its index. -/
def step (r : UInt32) (b : UInt8) : Checked UInt32 :=
  match Crc32.table[((r >>> 24) ^^^ b.toUInt32).toNat]? with
  | some w => .ok ((r <<< 8) ^^^ w)
  | none => .error .index

def checksum (data : Bytes) : Checked UInt32 := data.foldlM step 0xFFFFFFFF

theorem step_eq (r : UInt32) (b : UInt8) : step r b = .ok (Crc32.step r b) := by
  have hr := r.toNat_lt
  have htop : (r >>> 24).toNat < 256 := by
    rw [UInt32.toNat_shiftRight, Nat.shiftRight_eq_div_pow]
    change r.toNat / 2 ^ 24 < 256
    omega
  have hindex : ((r >>> 24) ^^^ b.toUInt32).toNat = ((r >>> 24).toUInt8 ^^^ b).toNat := by
    rw [UInt32.toNat_xor, UInt8.toNat_xor, UInt8.toNat_toUInt32, UInt32.toNat_toUInt8,
      Nat.mod_eq_of_lt htop]
  have hlt : ((r >>> 24).toUInt8 ^^^ b).toNat < Crc32.table.size := by
    rw [Crc32.size_table]
    exact UInt8.toNat_lt _
  have hword := Array.getElem?_eq_getElem hlt
  unfold step Crc32.step
  simp only [hindex]
  -- the table must stay out of sight, or its words are computed
  generalize Crc32.table[((r >>> 24).toUInt8 ^^^ b).toNat]? = found at hword
  subst hword
  rfl

theorem checksum_eq (data : Bytes) : checksum data = .ok (Crc32.checksum data) := by
  rw [checksum, Crc32.checksum]
  generalize (0xFFFFFFFF : UInt32) = r
  induction data generalizing r with
  | nil => rfl
  | cons b data ih =>
    rw [List.foldlM_cons, step_eq]
    exact ih _

end Checked

end DvbHost
