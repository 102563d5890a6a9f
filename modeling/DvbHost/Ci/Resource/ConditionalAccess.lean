import DvbHost.Ci.Resource.Basic

/-!
# Conditional access support

It asks a module which systems it serves as soon as a session opens, and reports that and the
replies to what it is to descramble.
-/

namespace DvbHost.Ci.ConditionalAccess

set_option autoImplicit false

def opened (session : SessionId) : Reaction Unit := .send () session 0x9F8030 []

/-- System identifiers of two octets. -/
def systems (session : SessionId) (data : Bytes) : Reaction Unit :=
  match Bytes.parts? 2 data with
  | none => .fail () .lengthMismatch
  | some parts => .emit () (.caInfo session (parts.map fun p => UInt16.ofNat (Bytes.number p)))

def receive (session : SessionId) (apdu : Apdu) : Reaction Unit :=
  if apdu.tag = 0x9F8031 then systems session apdu.data
  else if apdu.tag = 0x9F8033 then
    match CaPmtReply.read apdu.data with
    | .ok reply => .emit () (.caPmtReply session reply)
    | .error e => .fail () e
  else .fail () (.protocolViolation .unexpectedApdu)

end DvbHost.Ci.ConditionalAccess
