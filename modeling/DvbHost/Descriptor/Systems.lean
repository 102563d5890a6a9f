import DvbHost.Descriptor.Loop
import DvbHost.Pid
import DvbHost.Text.Language

/-!
# Descriptors of MPEG-2 systems

The descriptors that every standard shares.
-/

namespace DvbHost

set_option autoImplicit false

structure StreamType where
  code : UInt8
  deriving DecidableEq

namespace StreamType

def isVideo (t : StreamType) : Bool := t.code ∈ [0x01, 0x02, 0x1B, 0x24]

def isAudio (t : StreamType) : Bool := t.code ∈ [0x03, 0x04, 0x0F, 0x11, 0x81]

def read : Cursor StreamType := do return ⟨← Cursor.u8⟩

end StreamType

namespace Descriptor

open Octet (field flag)

/-- What a video stream descriptor adds when the stream is not MPEG-1 only. -/
structure VideoProfile where
  profileAndLevel : UInt8
  chromaFormat : UInt8
  frameRateExtension : Bool
  deriving DecidableEq

structure VideoStream where
  multipleFrameRate : Bool
  frameRateCode : UInt8
  mpeg1Only : Bool
  constrainedParameter : Bool
  stillPicture : Bool
  mpeg2 : Option VideoProfile
  deriving DecidableEq

namespace VideoStream

/-- The octets after the first: none for MPEG-1 only, two otherwise. -/
def profile (mpeg1Only : Bool) (tail : Bytes) : Except SiError (Option VideoProfile) :=
  match mpeg1Only, tail with
  | true, [] => .ok none
  | false, [p, b] => .ok (some ⟨p, field 6 2 b, flag 5 b⟩)
  | _, _ => .error .lengthMismatch

def format : DescriptorFormat VideoStream := ⟨0x02, do
  let b ← Cursor.u8
  let mpeg2 ← Cursor.lift (profile (flag 2 b) (← Cursor.rest))
  return ⟨flag 7 b, field 3 4 b, flag 2 b, flag 1 b, flag 0 b, mpeg2⟩⟩

end VideoStream

structure AudioStream where
  freeFormat : Bool
  id : Bool
  layer : UInt8
  variableRate : Bool
  deriving DecidableEq

def AudioStream.format : DescriptorFormat AudioStream := ⟨0x03, Cursor.sized 1 do
  let b ← Cursor.u8
  return ⟨flag 7 b, flag 6 b, field 4 2 b, flag 3 b⟩⟩

structure Registration where
  formatIdentifier : Bytes
  additionalInfo : Bytes
  deriving DecidableEq

def Registration.format : DescriptorFormat Registration := ⟨0x05, do
  let identifier ← Cursor.bytes 4
  return ⟨identifier, ← Cursor.rest⟩⟩

structure DataStreamAlignment where
  alignmentType : UInt8
  deriving DecidableEq

def DataStreamAlignment.format : DescriptorFormat DataStreamAlignment := ⟨0x06, Cursor.sized 1 do
  return ⟨← Cursor.u8⟩⟩

structure ConditionalAccess where
  systemId : UInt16
  pid : Pid
  privateData : Bytes
  deriving DecidableEq

def ConditionalAccess.format : DescriptorFormat ConditionalAccess := ⟨0x09, do
  let systemId ← Cursor.u16
  let pid ← Pid.read
  return ⟨systemId, pid, ← Cursor.rest⟩⟩

structure AudioLanguage where
  language : Language
  audioType : UInt8
  deriving DecidableEq

structure Languages where
  languages : List AudioLanguage
  deriving DecidableEq

def AudioLanguage.read : Cursor AudioLanguage := do
  let language ← Language.read
  return ⟨language, ← Cursor.u8⟩

def Languages.format : DescriptorFormat Languages :=
  ⟨0x0A, do return ⟨← Cursor.entries 4 AudioLanguage.read⟩⟩

structure MaximumBitrate where
  /-- In units of 50 octets per second; 22 bits. -/
  rate : UInt32
  deriving DecidableEq

namespace MaximumBitrate

def format : DescriptorFormat MaximumBitrate := ⟨0x0E, Cursor.sized 3 do
  return ⟨UInt32.ofNat (bits 0 22 (← Cursor.u24).toNat)⟩⟩

def bitsPerSecond (d : MaximumBitrate) : Nat := d.rate.toNat * 50 * 8

end MaximumBitrate

end Descriptor

end DvbHost
