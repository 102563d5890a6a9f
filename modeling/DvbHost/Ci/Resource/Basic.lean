import DvbHost.Ci.ApplicationInfo
import DvbHost.Ci.CaPmt
import DvbHost.Ci.Menu
import DvbHost.Ci.SessionEvent

/-!
# Resources of a host

A resource reacts to what happens on its sessions. It is told the time and which resources the
host has; it answers with its new state, the application units to send, the events to report and
perhaps an error. A reaction that fails still has its state, its units and its events.
-/

namespace DvbHost.Ci

set_option autoImplicit false

/-- What a resource reports. -/
inductive AppEvent where
  /-- The resources that the module itself offers. -/
  | moduleProfile (session : SessionId) (resources : List ResourceId)
  | applicationInfo (session : SessionId) (info : ApplicationInfo)
  /-- The conditional access systems that the module can serve. -/
  | caInfo (session : SessionId) (systemIds : List UInt16)
  | caPmtReply (session : SessionId) (reply : CaPmtReply)
  | mmi (session : SessionId) (event : MmiEvent)
  deriving DecidableEq

/-- What a resource is told when it is called. -/
structure Context where
  /-- Milliseconds since some moment. -/
  now : Nat
  /-- Seconds of Unix time. -/
  unixTime : Int
  /-- The resources of the host in order of registration. -/
  resources : List ResourceId

structure Reaction (σ : Type) where
  state : σ
  sent : List (SessionId × Bytes)
  events : List AppEvent
  error : Option CiError

namespace Reaction

variable {σ τ : Type}

def done (s : σ) : Reaction σ := ⟨s, [], [], none⟩

def fail (s : σ) (e : CiError) : Reaction σ := ⟨s, [], [], some e⟩

def emit (s : σ) (event : AppEvent) : Reaction σ := ⟨s, [], [event], none⟩

/-- Sends one unit. -/
def send (s : σ) (session : SessionId) (tag : Nat) (data : Bytes) : Reaction σ :=
  match Apdu.encode tag data with
  | .ok apdu => ⟨s, [(session, apdu)], [], none⟩
  | .error e => fail s e

/-- Reports an event before all others. -/
def after (event : AppEvent) (r : Reaction σ) : Reaction σ := { r with events := event :: r.events }

def map (f : σ → τ) (r : Reaction σ) : Reaction τ := ⟨f r.state, r.sent, r.events, r.error⟩

end Reaction

end DvbHost.Ci
