import DvbHost.Ci.Resource.Basic

/-!
# The resource manager

It asks a module for its profile as soon as a session opens, and tells it the host's resources
when it is asked. After the first profile on a session it has the module ask again.
-/

namespace DvbHost.Ci

set_option autoImplicit false

structure ResourceManager where
  /-- The sessions whose module has been made to ask again. -/
  changed : List SessionId

namespace ResourceManager

def empty : ResourceManager := ⟨[]⟩

def tagEnquiry : Nat := 0x9F8010
def tagProfile : Nat := 0x9F8011
def tagChange : Nat := 0x9F8012

def opened (m : ResourceManager) (session : SessionId) : Reaction ResourceManager :=
  .send m session tagEnquiry []

/-- A module's profile: identifiers of four octets. -/
def profile (m : ResourceManager) (session : SessionId) (data : Bytes) : Reaction ResourceManager :=
  match Bytes.parts? 4 data with
  | none => .fail m .lengthMismatch
  | some parts =>
    .after (.moduleProfile session (parts.map ResourceId.ofBytes))
      (if session ∈ m.changed then .done m
        else .send ⟨session :: m.changed⟩ session tagChange [])

def receive (ctx : Context) (m : ResourceManager) (session : SessionId) (apdu : Apdu) :
    Reaction ResourceManager :=
  if apdu.tag = tagEnquiry then
    .send m session tagProfile (ctx.resources.flatMap ResourceId.toBytes)
  else if apdu.tag = tagProfile then m.profile session apdu.data
  else if apdu.tag = tagChange then .send m session tagEnquiry []
  else .fail m (.protocolViolation .unexpectedApdu)

def closed (m : ResourceManager) (session : SessionId) : ResourceManager :=
  ⟨m.changed.filter (· ≠ session)⟩

end ResourceManager

end DvbHost.Ci
