import DvbHost.Ci.ResourceId

/-!
# Sessions and what happens to them

A session is named by the slot, the transport connection and its number there.
-/

namespace DvbHost.Ci

set_option autoImplicit false

structure SessionId where
  /-- The index of the slot. -/
  slot : Nat
  tcid : UInt8
  number : UInt16
  deriving DecidableEq

inductive SessionEvent where
  /-- The module opened a session to a resource of the host. -/
  | opened (session : SessionId) (resource : ResourceId)
  /-- The module answered the host's wish for a session. -/
  | created (session : SessionId) (resource : ResourceId) (status : SessionStatus)
  | data (session : SessionId) (resource : ResourceId) (data : Bytes)
  | closed (session : SessionId) (resource : ResourceId)
  deriving DecidableEq

namespace SessionEvent

def session : SessionEvent → SessionId
  | opened s _ | created s _ _ | data s _ _ | closed s _ => s

end SessionEvent

end DvbHost.Ci
