import DvbHost.SiError

/-!
# Reading byte strings

A `Cursor` is a reading step: given the octets not yet read it answers with a value or an error,
and with the octets that are unread afterwards. A field that does not fit fails with
`truncatedData` and leaves the octets unread. `within` confines a reading to a part that is cut
off first, so nothing outside that part is read.
-/

namespace DvbHost

set_option autoImplicit false

def Cursor (α : Type) := Bytes → Except SiError α × Bytes

namespace Cursor

variable {α β : Type}

instance : Monad Cursor where
  pure a := fun s => (.ok a, s)
  bind p f := fun s =>
    match p s with
    | (.ok a, s') => f a s'
    | (.error e, s') => (.error e, s')

def fail (e : SiError) : Cursor α := fun s => (.error e, s)

/-- An outcome that was computed elsewhere. -/
def lift (r : Except SiError α) : Cursor α := fun s => (r, s)

/-- What a reading makes of a byte string; octets it leaves unread are ignored. -/
def run (p : Cursor α) (bs : Bytes) : Except SiError α := (p bs).1

/-- The octets not yet read. -/
def unread : Cursor Bytes := fun s => (.ok s, s)

def peek : Cursor UInt8
  | [] => (.error .truncatedData, [])
  | b :: s => (.ok b, b :: s)

def bytes (n : Nat) : Cursor Bytes := fun s =>
  match s.split? n with
  | some (head, tail) => (.ok head, tail)
  | none => (.error .truncatedData, s)

def u8 : Cursor UInt8
  | [] => (.error .truncatedData, [])
  | b :: s => (.ok b, s)

def u16 : Cursor UInt16 := do return UInt16.ofNat (← bytes 2).number

def u24 : Cursor UInt32 := do return UInt32.ofNat (← bytes 3).number

def u32 : Cursor UInt32 := do return UInt32.ofNat (← bytes 4).number

def u48 : Cursor UInt64 := do return UInt64.ofNat (← bytes 6).number

/-- A length of 12 bits below 4 reserved bits. -/
def length12 : Cursor Nat := do return bits 0 12 (← u16).toNat

/-- All octets not yet read. -/
def rest : Cursor Bytes := fun s => (.ok s, [])

/-- Succeeds only at the end of the data. -/
def finish : Cursor Unit := fun s =>
  match s with
  | [] => (.ok (), [])
  | _ :: _ => (.error .lengthMismatch, s)

/-- Cuts off `n` octets and reads them alone; what `p` leaves of them is dropped. -/
def within (n : Nat) (p : Cursor α) : Cursor α := do
  let part ← bytes n
  lift (p.run part)

/-- Reads with `p` and requires that nothing is left. -/
def exactly (p : Cursor α) : Cursor α := do
  let a ← p
  finish
  return a

/-- Reads `p` `n` times. -/
def repeated (p : Cursor α) : (n : Nat) → Cursor (List α)
  | 0 => pure []
  | n + 1 => do
    let a ← p
    return a :: (← repeated p n)

/-- Reads `p` until the data ends, but at most `fuel` times. -/
def untilEndWithin (p : Cursor α) : (fuel : Nat) → Cursor (List α)
  | 0 => pure []
  | fuel + 1 => fun s =>
    match s with
    | [] => (.ok [], [])
    | _ :: _ => (do
        let a ← p
        return a :: (← untilEndWithin p fuel) : Cursor (List α)) s

/-- Reads `p` until the data ends. Every entry that is read has at least one octet, so the number
of octets bounds the number of entries. -/
def untilEnd (p : Cursor α) : Cursor (List α) := fun s => untilEndWithin p s.length s

/-- Reads `p` on data of exactly `n` octets, and nothing of any other length. -/
def sized (n : Nat) (p : Cursor α) : Cursor α := fun s =>
  if s.length = n then p s else (.error .lengthMismatch, s)

/-- Reads entries of `size` octets each until the data ends; data that is no whole number of
entries is refused before any is read. -/
def entries (size : Nat) (p : Cursor α) : Cursor (List α) := fun s =>
  if s.length % size = 0 then untilEnd p s else (.error .lengthMismatch, s)

/-- A field of octets after its length in one octet. -/
def counted : Cursor Bytes := do bytes (← u8).toNat

end Cursor

end DvbHost
