import DvbHost.Pid
import DvbHost.Proofs.Checked.Calendar
import DvbHost.Text.Language

/-!
# Fields with faults

A field is cut off first and then taken apart by its indices. If it is there it has its length, so
no index leaves it.
-/

namespace DvbHost

set_option autoImplicit false

variable {α : Type} {n : Nat} {g : Bytes → Checked α} {p : Cursor α}

/-! ## Two octets -/

namespace Octet

variable (a b : UInt8)

theorem toNat_pair : (UInt16.ofNat (Bytes.number [a, b])).toNat = a.toNat * 256 + b.toNat := by
  have ha := a.toNat_lt
  have hb := b.toNat_lt
  rw [UInt16.toNat_ofNat', Bytes.number_pair]
  omega

theorem pair_div : (a.toNat * 256 + b.toNat) / 2 ^ 8 = a.toNat := by
  have hb := b.toNat_lt
  omega

/-- From the ninth bit on a pair has the bits of its first octet. -/
theorem bits_pair (low width : Nat) :
    UInt8.ofNat (bits (8 + low) width (a.toNat * 256 + b.toNat)) = field low width a := by
  rw [field, bits_eq, bits_eq, Nat.pow_add, ← Nat.div_div_eq_div_mul, pair_div]

theorem testBit_pair (i : Nat) : (a.toNat * 256 + b.toNat).testBit (8 + i) = flag i a := by
  rw [Nat.add_comm 8 i, Nat.testBit_add, pair_div, flag]

end Octet

/-! ## Fields of a fixed size -/

theorem Pid.takes_read : Pid.read.Takes 2 := Cursor.takes_u16.map _

theorem Language.takes_read : Language.read.Takes 3 :=
  Cursor.takes_u8.bind fun _ => Cursor.takes_u8.bind fun _ => Cursor.takes_u8.map _

theorem DateTime.takes_read : DateTime.read.Takes 5 :=
  (Cursor.takes_u16.map fun w => Date.ofDay w.toNat).bind fun _ => Cursor.takes_u8.bind fun _ =>
    Cursor.takes_u8.bind fun _ => Cursor.takes_u8.map _

namespace Checked

/-- An array of `n` octets, made of a slice that must have as many. -/
def array (n : Nat) (bs : Bytes) : Checked Bytes :=
  if bs.length = n then .ok bs else .error .slice

theorem array_eq {bs : Bytes} (h : bs.length = n) : array n bs = .ok bs := if_pos h

def u16 (bs : Bytes) : Checked UInt16 := do return UInt16.ofNat (← number 2 bs)

def u24 (bs : Bytes) : Checked UInt32 := do return UInt32.ofNat (← number 3 bs)

def u32 (bs : Bytes) : Checked UInt32 := do return UInt32.ofNat (← number 4 bs)

/-- A language code. -/
def language (bs : Bytes) : Checked Language := do
  return ⟨← octet bs 0, ← octet bs 1, ← octet bs 2⟩

/-- The low 13 bits of two octets at the front of a slice. -/
def pid (bs : Bytes) : Checked Pid := do
  let w ← u16 (← slice bs 0 2)
  return Pid.ofLow w.toNat

end Checked

namespace CheckedCursor

open Checked

/-- A field of `n` octets, taken apart by `g`. -/
def field (n : Nat) (g : Bytes → Checked α) : CheckedCursor α := do check (g (← bytes n))

/-- A field that does not fault is the library's, if both refuse data that is too short. -/
theorem field_eq
    (hfull : ∀ bs : Bytes, bs.length = n → ∃ a, g bs = .ok a ∧ p.Reads bs a)
    (hshort : p.Needs n) : field n g = ofCursor p := by
  funext s
  by_cases h : s.length < n
  · obtain ⟨tail, htail⟩ := hshort s h
    change (ofCursor (Cursor.bytes n) s >>= fun q => check (g q.1) q.2) = _
    obtain ⟨rest, hrest⟩ := (Cursor.takes_bytes n).needs s h
    rw [ofCursor, ofCursor, hrest, htail]
    rfl
  · have hlength : (s.take n).length = n := by
      rw [List.length_take]
      omega
    obtain ⟨a, ha, hreads⟩ := hfull (s.take n) hlength
    have hbytes := Cursor.bytes_of_le (Nat.not_lt.mp h)
    have hp := hreads (s.drop n)
    rw [List.take_append_drop] at hp
    change (ofCursor (Cursor.bytes n) s >>= fun q => check (g q.1) q.2) = _
    rw [ofCursor, ofCursor, hbytes, hp]
    change check (g (s.take n)) (s.drop n) = _
    rw [ha]
    rfl

/-- A field whose octets make up one number. -/
theorem field_number {f : Nat → α} :
    field n (fun bs => do return f (← number n bs)) =
      ofCursor (do return f (← Cursor.bytes n).number) := by
  apply field_eq
  · intro bs h
    refine ⟨f bs.number, by rw [number_eq h]; rfl, ?_⟩
    subst h
    exact (Cursor.reads_bytes bs).map fun bs => f bs.number
  · exact ((Cursor.takes_bytes n).map fun bs => f bs.number).needs

def u16 : CheckedCursor UInt16 := field 2 Checked.u16

def u24 : CheckedCursor UInt32 := field 3 Checked.u24

def u32 : CheckedCursor UInt32 := field 4 Checked.u32

theorem u16_eq : u16 = ofCursor Cursor.u16 := field_number

theorem u24_eq : u24 = ofCursor Cursor.u24 := field_number

theorem u32_eq : u32 = ofCursor Cursor.u32 := field_number

def pid : CheckedCursor Pid := field 2 Checked.pid

theorem pid_eq : pid = ofCursor Pid.read := by
  apply field_eq
  · intro bs h
    match bs, h with
    | [a, b], _ => exact ⟨_, rfl, fun tail => rfl⟩
  · exact Pid.takes_read.needs

def language : CheckedCursor Language := field 3 fun bs => do Checked.language (← array 3 bs)

theorem language_eq : language = ofCursor Language.read := by
  apply field_eq
  · intro bs h
    match bs, h with
    | [a, b, c], _ => exact ⟨_, rfl, fun tail => rfl⟩
  · exact Language.takes_read.needs

def dateTime : CheckedCursor DateTime := field 5 fun bs => do Checked.dateTime (← array 5 bs)

theorem dateTime_eq : dateTime = ofCursor DateTime.read := by
  apply field_eq
  · intro bs h
    rw [array_eq h]
    match bs, h with
    | [a, b, h, m, s], _ => exact ⟨_, Checked.dateTime_eq a b h m s, fun tail => rfl⟩
  · exact DateTime.takes_read.needs

end CheckedCursor

end DvbHost
