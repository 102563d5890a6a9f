import DvbHost.Bytes.Cursor

/-!
# Packet identifiers

A PID is a number of 13 bits. In sections it stands in two octets whose upper three bits are
reserved and written as ones.
-/

namespace DvbHost

set_option autoImplicit false

structure Pid where
  number : Nat
  lt : number < 0x2000
  deriving DecidableEq

namespace Pid

/-- The low 13 bits of a number. -/
def ofLow (n : Nat) : Pid := ⟨bits 0 13 n, Nat.mod_lt _ (by decide)⟩

def ofNat? (n : Nat) : Option Pid :=
  if h : n < 0x2000 then some ⟨n, h⟩ else none

/-- The PID of null packets, also the one that stands for "none given". -/
def null : Pid := ⟨0x1FFF, by decide⟩

instance : Inhabited Pid := ⟨null⟩

def toBytes (p : Pid) : Bytes := Bytes.ofNumber 2 (0xE000 + p.number)

def text (p : Pid) : String := Numeral.hexMarked 4 p.number

def read : Cursor Pid := do return ofLow (← Cursor.u16).toNat

end Pid

end DvbHost
