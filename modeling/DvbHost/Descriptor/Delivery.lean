import DvbHost.Calendar.Bcd
import DvbHost.Descriptor.Loop

/-!
# Delivery systems

How a transport stream is carried by satellite, cable or terrestrial transmitters.
-/

namespace DvbHost.Descriptor

set_option autoImplicit false

open Octet (field flag)

inductive Polarization where
  | linearHorizontal
  | linearVertical
  | circularLeft
  | circularRight
  deriving DecidableEq

def Polarization.ofCode (code : UInt8) : Polarization :=
  match code.toNat with
  | 0 => .linearHorizontal
  | 1 => .linearVertical
  | 2 => .circularLeft
  | _ => .circularRight

structure SatelliteDelivery where
  /-- In units of 10 kHz. -/
  frequency : Nat
  /-- In tenths of a degree. -/
  orbitalPosition : Nat
  east : Bool
  polarization : Polarization
  rollOff : UInt8
  secondGeneration : Bool
  modulationType : UInt8
  /-- In units of 100 symbols per second. -/
  symbolRate : Nat
  fecInner : UInt8
  deriving DecidableEq

def SatelliteDelivery.format : DescriptorFormat SatelliteDelivery := ⟨0x43, Cursor.sized 11 do
  let frequency ← Cursor.bytes 4
  let position ← Cursor.bytes 2
  let b ← Cursor.u8
  let rate ← Cursor.bytes 3
  let last ← Cursor.u8
  return {
    frequency := Bcd.number 8 frequency
    orbitalPosition := Bcd.number 4 position
    east := flag 7 b
    polarization := .ofCode (field 5 2 b)
    rollOff := field 3 2 b
    secondGeneration := flag 2 b
    modulationType := field 0 2 b
    symbolRate := Bcd.number 7 (rate ++ [last])
    fecInner := field 0 4 last }⟩

structure CableDelivery where
  /-- In units of 100 Hz. -/
  frequency : Nat
  fecOuter : UInt8
  modulation : UInt8
  /-- In units of 100 symbols per second. -/
  symbolRate : Nat
  fecInner : UInt8
  deriving DecidableEq

def CableDelivery.format : DescriptorFormat CableDelivery := ⟨0x44, Cursor.sized 11 do
  let frequency ← Cursor.bytes 4
  let _reserved ← Cursor.u8
  let outer ← Cursor.u8
  let modulation ← Cursor.u8
  let rate ← Cursor.bytes 3
  let last ← Cursor.u8
  return {
    frequency := Bcd.number 8 frequency
    fecOuter := field 0 4 outer
    modulation := modulation
    symbolRate := Bcd.number 7 (rate ++ [last])
    fecInner := field 0 4 last }⟩

structure TerrestrialDelivery where
  /-- In units of 10 Hz. -/
  centreFrequency : UInt32
  bandwidth : UInt8
  priority : Bool
  timeSlicing : Bool
  mpeFec : Bool
  constellation : UInt8
  hierarchy : UInt8
  codeRateHigh : UInt8
  codeRateLow : UInt8
  guardInterval : UInt8
  transmissionMode : UInt8
  otherFrequency : Bool
  deriving DecidableEq

def TerrestrialDelivery.format : DescriptorFormat TerrestrialDelivery := ⟨0x5A, Cursor.sized 11 do
  let centreFrequency ← Cursor.u32
  let b ← Cursor.u8
  let c ← Cursor.u8
  let d ← Cursor.u8
  return {
    centreFrequency := centreFrequency
    bandwidth := field 5 3 b
    priority := flag 4 b
    timeSlicing := flag 3 b
    mpeFec := flag 2 b
    constellation := field 6 2 c
    hierarchy := field 3 3 c
    codeRateHigh := field 0 3 c
    codeRateLow := field 5 3 d
    guardInterval := field 3 2 d
    transmissionMode := field 1 2 d
    otherFrequency := flag 0 d }⟩

structure FrequencyList where
  codingType : UInt8
  /-- In units that depend on the coding type. -/
  centreFrequencies : List Nat
  deriving DecidableEq

namespace FrequencyList

/-- Satellite and cable frequencies are written in decimal digits, others as binary numbers. -/
def frequency (codingType : UInt8) : Cursor Nat := do
  let octets ← Cursor.bytes 4
  return if codingType = 1 ∨ codingType = 2 then Bcd.number 8 octets else octets.number

def format : DescriptorFormat FrequencyList := ⟨0x62, do
  let codingType := field 0 2 (← Cursor.u8)
  return ⟨codingType, ← Cursor.entries 4 (frequency codingType)⟩⟩

end FrequencyList

end DvbHost.Descriptor
