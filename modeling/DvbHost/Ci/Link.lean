import DvbHost.Bytes

/-!
# The link to a device

A device carries whole transport units between a host and the modules in its slots, and nothing of
it is known but its answers. All devices live in one world `ω`: each call takes the world and gives
it back changed, so what the devices see is seen in one order. A call that fails says why.
-/

namespace DvbHost.Ci

set_option autoImplicit false

inductive ModuleState where
  | missing
  | initialising
  | ready
  deriving DecidableEq

/-- What the interface of a module understands. -/
inductive LinkType where
  /-- Transport units. -/
  | packets
  /-- Whole requests: the device has the layers above for itself. -/
  | highLevel
  deriving DecidableEq

structure Link (ω : Type) where
  reset : (device : Nat) → (slot : UInt8) → ω → Except String Unit × ω
  status : (device : Nat) → (slot : UInt8) → ω → Except String ModuleState × ω
  linkType : (device : Nat) → (slot : UInt8) → ω → Except String LinkType × ω
  /-- The next response, if one has come; `room` octets are asked for. -/
  read : (device : Nat) → (slot : UInt8) → (room : Nat) → ω → Except String (Option Bytes) × ω
  write : (device : Nat) → (slot tcid : UInt8) → Bytes → ω → Except String Unit × ω
  /-- How often the host reads in one go at most. -/
  burst : (device : Nat) → (slot : UInt8) → ω → Nat

end DvbHost.Ci
