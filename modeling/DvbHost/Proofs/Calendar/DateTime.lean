import DvbHost.Calendar.DateTime
import DvbHost.Proofs.Calendar.Date

/-!
# Times are read back

What a number, a duration and a time come back as when they are written in decimal digits and read.
Numbers below 160, durations below 100 hours and the times with a date in range come back as they
are.
-/

namespace DvbHost

set_option autoImplicit false

open Cursor

namespace Bcd

theorem toNat_ofNat (n : Nat) : (ofNat n).toNat = n / 10 % 16 * 16 + n % 10 := by
  rw [ofNat, UInt8.toNat_ofNat']
  omega

/-- Of the tens place only four bits are kept. -/
theorem value_ofNat (n : Nat) : value (ofNat n) = n % 160 := by
  rw [value, toNat_ofNat]
  omega

/-- Two digits never look like an octet of ones. -/
theorem ofNat_ne_ones (n : Nat) : ofNat n ≠ 0xFF := by
  intro heq
  have hvalue := toNat_ofNat n
  rw [heq] at hvalue
  change 255 = n / 10 % 16 * 16 + n % 10 at hvalue
  omega

/-- The octets of a duration, and what they are read as. -/
theorem ofDuration_read (n : Nat) :
    ∃ hour minute second, ofDuration n = [hour, minute, second] ∧
      duration hour minute second = min n maxDuration := by
  refine ⟨_, _, _, rfl, ?_⟩
  have hmax : min n maxDuration ≤ maxDuration := Nat.min_le_right ..
  generalize min n maxDuration = secs at *
  rw [maxDuration] at hmax
  rw [duration, value_ofNat, value_ofNat, value_ofNat]
  omega

end Bcd

namespace DateTime

/-- A time that can be written: a date of the range, and two digits to each part of the day. -/
structure InRange (t : DateTime) : Prop where
  date : t.date.InRange
  hour : t.hour.toNat ≤ 99
  minute : t.minute.toNat ≤ 99
  second : t.second.toNat ≤ 99

variable {t : DateTime}

/-- A time as it comes back when its octets are read. -/
def rewritten (t : DateTime) : DateTime :=
  ⟨t.date.rewritten, t.hour % 160, t.minute % 160, t.second % 160⟩

theorem length_toBytes (t : DateTime) : t.toBytes.length = 5 := by
  rw [toBytes, List.length_append, Date.toBytes, Bytes.length_ofNumber]
  rfl

theorem ofNat_value (n : UInt8) : UInt8.ofNat (Bcd.value (Bcd.ofNat n.toNat)) = n % 160 := by
  apply UInt8.toNat_inj.mp
  have hlt := n.toNat_lt
  rw [Bcd.value_ofNat, UInt8.toNat_ofNat', UInt8.toNat_mod]
  change _ = n.toNat % 160
  omega

theorem reads (t : DateTime) : Reads read t.toBytes t.rewritten := by
  obtain ⟨date, hour, minute, second⟩ := t
  refine date.reads.bind fun tail => ?_
  change (Except.ok (⟨date.rewritten, UInt8.ofNat (Bcd.value (Bcd.ofNat hour.toNat)),
    UInt8.ofNat (Bcd.value (Bcd.ofNat minute.toNat)),
    UInt8.ofNat (Bcd.value (Bcd.ofNat second.toNat))⟩ : DateTime), tail) = _
  rw [ofNat_value, ofNat_value, ofNat_value, rewritten]

/-- No time is written as octets of ones only. -/
theorem toBytes_ne_ones (t : DateTime) : t.toBytes ≠ List.replicate 5 0xFF := by
  intro heq
  have hhour : t.toBytes[2]? = some (Bcd.ofNat t.hour.toNat) := rfl
  rw [heq] at hhour
  exact Bcd.ofNat_ne_ones _ (Option.some.inj hhour).symm

theorem mod_eq_iff {n : UInt8} : n % 160 = n ↔ n.toNat < 160 := by
  rw [← UInt8.toNat_inj, UInt8.toNat_mod]
  change n.toNat % 160 = n.toNat ↔ _
  omega

theorem InRange.rewritten_eq (ht : t.InRange) : t.rewritten = t := by
  have hpart {n : UInt8} (hn : n.toNat ≤ 99) : n % 160 = n := mod_eq_iff.mpr (by omega)
  rw [rewritten, ht.date.rewritten_eq, hpart ht.hour, hpart ht.minute, hpart ht.second]

end DateTime

end DvbHost
