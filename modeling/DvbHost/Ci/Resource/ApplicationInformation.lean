import DvbHost.Ci.Resource.Basic

/-! # Application information: asked for when a session opens, reported when it comes -/

namespace DvbHost.Ci.ApplicationInformation

set_option autoImplicit false

def opened (session : SessionId) : Reaction Unit := .send () session 0x9F8020 []

def receive (session : SessionId) (apdu : Apdu) : Reaction Unit :=
  if apdu.tag = 0x9F8021 then
    match ApplicationInfo.read apdu.data with
    | .ok info => .emit () (.applicationInfo session info)
    | .error e => .fail () e
  else .fail () (.protocolViolation .unexpectedApdu)

end DvbHost.Ci.ApplicationInformation
