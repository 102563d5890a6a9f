import DvbHost.Bytes
import DvbHost.Text.Numeral

/-!
# Resource identifiers and session status

A public resource is a class, a type and a version; one with both top bits set is private and has
no parts. A host resource can serve a request for the same class and type and for no version above
its own; a private one serves exactly itself.
-/

namespace DvbHost.Ci

set_option autoImplicit false

/-- How the opening or closing of a session went. -/
inductive SessionStatus where
  | ok
  | noResource
  | unavailable
  | lowVersion
  | busy
  | other (code : UInt8)
  deriving DecidableEq

namespace SessionStatus

def ofCode (code : UInt8) : SessionStatus :=
  if code = 0x00 then ok
  else if code = 0xF0 then noResource
  else if code = 0xF1 then unavailable
  else if code = 0xF2 then lowVersion
  else if code = 0xF3 then busy
  else other code

def code : SessionStatus → UInt8
  | ok => 0x00
  | noResource => 0xF0
  | unavailable => 0xF1
  | lowVersion => 0xF2
  | busy => 0xF3
  | other code => code

theorem code_ofCode (c : UInt8) : (ofCode c).code = c := by
  unfold ofCode
  split <;> (try split) <;> (try split) <;> (try split) <;> (try split) <;> simp_all [code]

end SessionStatus

structure ResourceId where
  value : UInt32
  deriving DecidableEq

namespace ResourceId

/-- A public resource: 14 bits of class, 10 of type and 6 of version. -/
def ofParts (resourceClass type : UInt16) (version : UInt8) : ResourceId :=
  ⟨UInt32.ofNat (bits 0 14 resourceClass.toNat * 0x10000 + bits 0 10 type.toNat * 0x40 +
    bits 0 6 version.toNat)⟩

def resourceManager : ResourceId := ofParts 0x01 1 1
def applicationInformation : ResourceId := ofParts 0x02 1 1
def conditionalAccess : ResourceId := ofParts 0x03 1 1
def dateTime : ResourceId := ofParts 0x24 1 1
def mmi : ResourceId := ofParts 0x40 1 1

def toBytes (r : ResourceId) : Bytes := Bytes.ofUInt32 r.value

/-- The identifier in four octets. -/
def ofBytes (bs : Bytes) : ResourceId := ⟨UInt32.ofNat bs.number⟩

def isPrivate (r : ResourceId) : Bool := bits 30 2 r.value.toNat == 3
def resourceClass (r : ResourceId) : Nat := bits 16 14 r.value.toNat
def type (r : ResourceId) : Nat := bits 6 10 r.value.toNat
def version (r : ResourceId) : Nat := bits 0 6 r.value.toNat

/-- Equal but for the version; a private identifier has none. -/
def sameResource (r s : ResourceId) : Bool :=
  if r.isPrivate || s.isPrivate then r == s else bits 6 26 r.value.toNat == bits 6 26 s.value.toNat

/-- Why a host resource cannot serve a request, if it cannot. -/
def refusal? (host requested : ResourceId) : Option SessionStatus :=
  if !host.sameResource requested then some .noResource
  else if !host.isPrivate && host.version < requested.version then some .lowVersion
  else none

def digits (r : ResourceId) : String := Numeral.hex 8 r.value.toNat

def text (r : ResourceId) : String := "ResourceId(0x" ++ r.digits ++ ")"

end ResourceId

end DvbHost.Ci
