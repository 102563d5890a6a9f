import DvbHost.Descriptor.Systems
import DvbHost.Text.MultipleString

/-!
# Descriptors of ATSC program information

Audio, captions, ratings and names. Reserved bits are ignored; nothing else is.
-/

namespace DvbHost.Descriptor

set_option autoImplicit false

open Octet (field flag)

structure Ac3Audio where
  sampleRateCode : UInt8
  bsid : UInt8
  bitRateCode : UInt8
  surroundMode : UInt8
  bsmod : UInt8
  channels : UInt8
  fullService : Bool
  additionalInfo : Bytes
  deriving DecidableEq

def Ac3Audio.format : DescriptorFormat Ac3Audio := ⟨0x81, do
  let a ← Cursor.u8
  let b ← Cursor.u8
  let c ← Cursor.u8
  return {
    sampleRateCode := field 5 3 a
    bsid := field 0 5 a
    bitRateCode := field 2 6 b
    surroundMode := field 0 2 b
    bsmod := field 5 3 c
    channels := field 1 4 c
    fullService := flag 0 c
    additionalInfo := ← Cursor.rest }⟩

structure Caption where
  language : Language
  digital : Bool
  serviceNumber : UInt8
  easyReader : Bool
  wideAspect : Bool
  deriving DecidableEq

structure CaptionService where
  services : List Caption
  deriving DecidableEq

def Caption.read : Cursor Caption := do
  let language ← Language.read
  let b ← Cursor.u8
  let flags ← Cursor.u8
  let _reserved ← Cursor.u8
  return ⟨language, flag 7 b, field 0 6 b, flag 7 flags, flag 6 flags⟩

def CaptionService.format : DescriptorFormat CaptionService := ⟨0x86, Cursor.exactly do
  let count ← Cursor.u8
  return ⟨← Cursor.repeated Caption.read (field 0 5 count).toNat⟩⟩

structure RatedDimension where
  dimension : UInt8
  value : UInt8
  deriving DecidableEq

structure RatedRegion where
  region : UInt8
  dimensions : List RatedDimension
  description : MultipleString
  deriving DecidableEq

structure ContentAdvisory where
  regions : List RatedRegion
  deriving DecidableEq

def RatedDimension.read : Cursor RatedDimension := do
  let dimension ← Cursor.u8
  return ⟨dimension, field 0 4 (← Cursor.u8)⟩

def RatedRegion.read : Cursor RatedRegion := do
  let region ← Cursor.u8
  let count ← Cursor.u8
  let dimensions ← Cursor.repeated RatedDimension.read count.toNat
  return ⟨region, dimensions, ← MultipleString.counted⟩

def ContentAdvisory.format : DescriptorFormat ContentAdvisory := ⟨0x87, Cursor.exactly do
  let count ← Cursor.u8
  return ⟨← Cursor.repeated RatedRegion.read (field 0 6 count).toNat⟩⟩

structure ExtendedChannelName where
  name : MultipleString
  deriving DecidableEq

def ExtendedChannelName.format : DescriptorFormat ExtendedChannelName :=
  ⟨0xA0, do return ⟨← Cursor.lift (MultipleString.read (← Cursor.rest))⟩⟩

structure LocatedElement where
  streamType : StreamType
  pid : Pid
  language : Language
  deriving DecidableEq

structure ServiceLocation where
  pcrPid : Pid
  elements : List LocatedElement
  deriving DecidableEq

def LocatedElement.read : Cursor LocatedElement := do
  let streamType ← StreamType.read
  let pid ← Pid.read
  return ⟨streamType, pid, ← Language.read⟩

def ServiceLocation.format : DescriptorFormat ServiceLocation := ⟨0xA1, Cursor.exactly do
  let pcrPid ← Pid.read
  let count ← Cursor.u8
  return ⟨pcrPid, ← Cursor.repeated LocatedElement.read count.toNat⟩⟩

structure ComponentName where
  name : MultipleString
  deriving DecidableEq

def ComponentName.format : DescriptorFormat ComponentName :=
  ⟨0xA3, do return ⟨← Cursor.lift (MultipleString.read (← Cursor.rest))⟩⟩

end DvbHost.Descriptor
