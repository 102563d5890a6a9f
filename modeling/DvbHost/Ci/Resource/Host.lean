import DvbHost.Ci.Resource.ApplicationInformation
import DvbHost.Ci.Resource.Clock
import DvbHost.Ci.Resource.ConditionalAccess
import DvbHost.Ci.Resource.Mmi
import DvbHost.Ci.Resource.ResourceManager

/-!
# The resources of a host, its own and its guests

Five resources come with the library. A program that uses it may bring resources of its own, and
applications that take the place of a resource on single sessions. Of these guests nothing is known
but how they react; what they do outside the host they do to a world `ω`.
-/

namespace DvbHost.Ci

set_option autoImplicit false

/-- How the guests of a host react: resources with states in `ρ`, applications with states in
`α`. -/
structure Guests (ω ρ α : Type) where
  opened : Context → SessionId → ρ → ω → Reaction ρ × ω
  receive : Context → SessionId → Apdu → ρ → ω → Reaction ρ × ω
  /-- An error of this reaction goes unheard. -/
  closed : Context → SessionId → ρ → ω → Reaction ρ × ω
  poll : Context → ρ → ω → Reaction ρ × ω
  applicationReceive : Context → SessionId → Apdu → α → ω → Reaction α × ω
  applicationClosed : SessionId → α → ω → ω

inductive HostResource (ρ : Type) where
  | resourceManager (m : ResourceManager)
  | applicationInformation
  | conditionalAccess
  | clock (c : Clock)
  | mmi (m : Mmi)
  | guest (id : ResourceId) (state : ρ)

namespace HostResource

variable {ω ρ α : Type}

def id : HostResource ρ → ResourceId
  | resourceManager _ => .resourceManager
  | applicationInformation => .applicationInformation
  | conditionalAccess => .conditionalAccess
  | clock _ => .dateTime
  | mmi _ => .mmi
  | guest id _ => id

/-- The resources that come with the library, in order of registration. -/
def standard (localOffset : Option Int16) : List (HostResource ρ) :=
  [resourceManager .empty, applicationInformation, conditionalAccess, clock (.empty localOffset),
    mmi .empty]

/-- A module opened a session to the resource. -/
def opened (guests : Guests ω ρ α) (ctx : Context) (session : SessionId) (world : ω) :
    HostResource ρ → Reaction (HostResource ρ) × ω
  | resourceManager m => ((m.opened session).map resourceManager, world)
  | applicationInformation =>
    ((ApplicationInformation.opened session).map fun _ => applicationInformation, world)
  | conditionalAccess => ((ConditionalAccess.opened session).map fun _ => conditionalAccess, world)
  | clock c => (.done (clock c), world)
  | mmi m => (.done (mmi m), world)
  | guest id state =>
    match guests.opened ctx session state world with
    | (r, world) => (r.map (guest id), world)

/-- An application unit came in on a session. -/
def receive (guests : Guests ω ρ α) (ctx : Context) (session : SessionId) (apdu : Apdu)
    (world : ω) : HostResource ρ → Reaction (HostResource ρ) × ω
  | resourceManager m => ((m.receive ctx session apdu).map resourceManager, world)
  | applicationInformation =>
    ((ApplicationInformation.receive session apdu).map fun _ => applicationInformation, world)
  | conditionalAccess =>
    ((ConditionalAccess.receive session apdu).map fun _ => conditionalAccess, world)
  | clock c => ((c.receive ctx session apdu).map clock, world)
  | mmi m => ((m.receive session apdu).map mmi, world)
  | guest id state =>
    match guests.receive ctx session apdu state world with
    | (r, world) => (r.map (guest id), world)

/-- A session ended. -/
def closed (guests : Guests ω ρ α) (ctx : Context) (session : SessionId) (world : ω) :
    HostResource ρ → Reaction (HostResource ρ) × ω
  | resourceManager m => (.done (resourceManager (m.closed session)), world)
  | applicationInformation => (.done applicationInformation, world)
  | conditionalAccess => (.done conditionalAccess, world)
  | clock c => (.done (clock (c.closed session)), world)
  | mmi m => (.done (mmi (m.closed session)), world)
  | guest id state =>
    match guests.closed ctx session state world with
    | (r, world) => (r.map (guest id), world)

/-- Called once in every poll. -/
def poll (guests : Guests ω ρ α) (ctx : Context) (world : ω) :
    HostResource ρ → Reaction (HostResource ρ) × ω
  | resourceManager m => (.done (resourceManager m), world)
  | applicationInformation => (.done applicationInformation, world)
  | conditionalAccess => (.done conditionalAccess, world)
  | clock c => ((c.poll ctx).map clock, world)
  | mmi m => (.done (mmi m), world)
  | guest id state =>
    match guests.poll ctx state world with
    | (r, world) => (r.map (guest id), world)

end HostResource

end DvbHost.Ci
