import DvbHost.Ci.Error
import DvbHost.Ci.ResourceId

/-!
# Session units

An SPDU is a tag, a length in one octet and a body of fixed length. Application units may follow
one kind of them, the one that names a session; after any other kind nothing may follow.
-/

namespace DvbHost.Ci

set_option autoImplicit false

inductive Spdu where
  /-- Data of a session: whole application units after the unit itself. -/
  | sessionNumber (session : UInt16) (body : Bytes)
  | openSessionRequest (resource : ResourceId)
  | openSessionResponse (status : SessionStatus) (resource : ResourceId) (session : UInt16)
  | createSession (resource : ResourceId) (session : UInt16)
  | createSessionResponse (status : SessionStatus) (resource : ResourceId) (session : UInt16)
  | closeSessionRequest (session : UInt16)
  | closeSessionResponse (status : SessionStatus) (session : UInt16)
  deriving DecidableEq

namespace Spdu

def tag : Spdu → UInt8
  | sessionNumber .. => 0x90
  | openSessionRequest .. => 0x91
  | openSessionResponse .. => 0x92
  | createSession .. => 0x93
  | createSessionResponse .. => 0x94
  | closeSessionRequest .. => 0x95
  | closeSessionResponse .. => 0x96

/-- The body that the length octet counts. -/
def fields : Spdu → Bytes
  | sessionNumber nb _ => Bytes.ofUInt16 nb
  | openSessionRequest r => r.toBytes
  | openSessionResponse status r nb => status.code :: r.toBytes ++ Bytes.ofUInt16 nb
  | createSession r nb => r.toBytes ++ Bytes.ofUInt16 nb
  | createSessionResponse status r nb => status.code :: r.toBytes ++ Bytes.ofUInt16 nb
  | closeSessionRequest nb => Bytes.ofUInt16 nb
  | closeSessionResponse status nb => status.code :: Bytes.ofUInt16 nb

/-- What follows the counted body. -/
def trailer : Spdu → Bytes
  | sessionNumber _ body => body
  | _ => []

def toBytes (s : Spdu) : Bytes :=
  s.tag :: UInt8.ofNat s.fields.length :: s.fields ++ s.trailer

def wordAt (hi lo : UInt8) : UInt16 := UInt16.ofNat (Bytes.number [hi, lo])

/-- The unit with a given tag, body and trailer; nothing is said of the trailer here. -/
def ofParts (tag : UInt8) (body trailer : Bytes) : Except CiError Spdu :=
  match tag, body with
  | 0x90, [hi, lo] => .ok (sessionNumber (wordAt hi lo) trailer)
  | 0x91, [a, b, c, d] => .ok (openSessionRequest (.ofBytes [a, b, c, d]))
  | 0x92, [s, a, b, c, d, hi, lo] =>
    .ok (openSessionResponse (.ofCode s) (.ofBytes [a, b, c, d]) (wordAt hi lo))
  | 0x93, [a, b, c, d, hi, lo] => .ok (createSession (.ofBytes [a, b, c, d]) (wordAt hi lo))
  | 0x94, [s, a, b, c, d, hi, lo] =>
    .ok (createSessionResponse (.ofCode s) (.ofBytes [a, b, c, d]) (wordAt hi lo))
  | 0x95, [hi, lo] => .ok (closeSessionRequest (wordAt hi lo))
  | 0x96, [s, hi, lo] => .ok (closeSessionResponse (.ofCode s) (wordAt hi lo))
  | tag, _ =>
    if 0x90 ≤ tag ∧ tag ≤ 0x96 then .error .lengthMismatch
    else .error (.protocolViolation .spduTag)

def isSessionNumber : Spdu → Bool
  | sessionNumber .. => true
  | _ => false

def read : Bytes → Except CiError Spdu
  | tag :: len :: tail =>
    match Bytes.split? len.toNat tail with
    | none => .error .truncatedData
    | some (body, trailer) =>
      match ofParts tag body trailer with
      | .error e => .error e
      | .ok s => if s.isSessionNumber || trailer.isEmpty then .ok s else .error .lengthMismatch
  | _ => .error .truncatedData

end Spdu

end DvbHost.Ci
