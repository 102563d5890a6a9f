import DvbHost.Bytes

/-!
# The section checksum

The 32-bit cyclic redundancy check of sections: generator `0x04C11DB7`, register preset to all
ones, most significant bit first, no final complement. `checksum` takes an octet at a time from a
table of 256 words; `bitSerial` is the register of the definition, fed one bit at a time.
-/

namespace DvbHost.Crc32

set_option autoImplicit false

def generator : UInt32 := 0x04C11DB7

/-- One step of division: the register moves up by one place and is reduced if a one left it. -/
def shift (r : UInt32) : UInt32 :=
  if r.toNat < 0x80000000 then r <<< 1 else (r <<< 1) ^^^ generator

/-- The table entry of an octet: the octet at the top of the register, divided eight times. -/
def entry (i : Nat) : UInt32 :=
  Nat.repeat shift 8 (UInt32.ofNat i <<< 24)

def table : Array UInt32 := Array.ofFn fun i : Fin 256 => entry i

theorem size_table : table.size = 256 := Array.size_ofFn

/-- The register after one more octet. -/
def step (r : UInt32) (b : UInt8) : UInt32 :=
  let i := ((r >>> 24).toUInt8 ^^^ b).toNat
  have : i < table.size := by rw [size_table]; exact UInt8.toNat_lt _
  (r <<< 8) ^^^ table[i]

def checksum (data : Bytes) : UInt32 := data.foldl step 0xFFFFFFFF

/-- A section that ends with its own checksum leaves the register at zero. -/
def verify (section_ : Bytes) : Bool := checksum section_ == 0

/-- The eight bits of an octet, most significant first. -/
def octetBits (b : UInt8) : List Bool :=
  [7, 6, 5, 4, 3, 2, 1, 0].map b.toNat.testBit

/-- The register after one more bit: reduced when the bit that leaves differs from it. -/
def stepBit (r : UInt32) (bit : Bool) : UInt32 :=
  if (decide (0x80000000 ≤ r.toNat)) = bit then r <<< 1 else (r <<< 1) ^^^ generator

def bitSerial (data : Bytes) : UInt32 :=
  (data.flatMap octetBits).foldl stepBit 0xFFFFFFFF

end DvbHost.Crc32
