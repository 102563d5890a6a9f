import DvbHost.Ci.Registry
import DvbHost.Ci.Resource.Host
import DvbHost.Ci.Session

/-!
# The common interface of a host

The session layer with the host's resources on top. What happens on a session goes to the
application attached to it or else to the resource it was opened for. What these want to send is
queued and goes out at the end of the poll, so a session that ends in the same poll refuses it. An
error is remembered and keeps nothing else from being done.
-/

namespace DvbHost.Ci

set_option autoImplicit false

inductive CiEvent where
  | sessionOpened (session : SessionId) (resource : ResourceId)
  | sessionCreated (session : SessionId) (resource : ResourceId) (status : SessionStatus)
  | sessionClosed (session : SessionId) (resource : ResourceId)
  | app (event : AppEvent)
  deriving DecidableEq

/-- The resources and applications of a host at work in a poll. -/
structure Dispatch (ω ρ α : Type) where
  registry : Registry (HostResource ρ)
  applications : KeyedList SessionId α
  outbox : Queue (SessionId × Bytes)
  events : Queue CiEvent
  error : Option CiError
  world : ω

namespace Dispatch

variable {ω ρ α : Type}

/-- The host as a resource sees it. -/
def context (now : Nat) (unixTime : Int) (d : Dispatch ω ρ α) : Context :=
  ⟨now, unixTime, d.registry.keys⟩

def report (e : CiEvent) (d : Dispatch ω ρ α) : Dispatch ω ρ α :=
  { d with events := d.events.push e }

/-- Remembers an error in place of earlier ones. -/
def note (error : Option CiError) (d : Dispatch ω ρ α) : Dispatch ω ρ α :=
  { d with error := error <|> d.error }

/-- Takes over what a reaction sends and reports. -/
def take {σ : Type} (r : Reaction σ) (world : ω) (d : Dispatch ω ρ α) : Dispatch ω ρ α :=
  { d with
    outbox := d.outbox.append r.sent
    events := d.events.append (r.events.map .app)
    world := world }

/-- Lets a resource react; one that is not registered does not. -/
def react (id : ResourceId) (f : HostResource ρ → ω → Reaction (HostResource ρ) × ω)
    (d : Dispatch ω ρ α) : Option CiError × Dispatch ω ρ α :=
  match d.registry.get? id with
  | none => (none, d)
  | some resource =>
    match f resource d.world with
    | (r, world) => (r.error, { d.take r world with registry := d.registry.put id r.state })

variable (guests : Guests ω ρ α) (now : Nat) (unixTime : Int)

/-- One unit for the application of the session or else for the resource. -/
def receiveApdu (session : SessionId) (id : ResourceId) (apdu : Apdu) (d : Dispatch ω ρ α) :
    Option CiError × Dispatch ω ρ α :=
  let ctx := d.context now unixTime
  match d.applications.get? session with
  | some application =>
    match guests.applicationReceive ctx session apdu application d.world with
    | (r, world) =>
      (r.error, { d.take r world with applications := d.applications.put session r.state })
  | none =>
    if (d.registry.get? id).isNone then (some .resourceUnavailable, d)
    else d.react id fun resource world => resource.receive guests ctx session apdu world

/-- Units in order until one is malformed or fails. -/
def receiveAll (session : SessionId) (id : ResourceId) :
    List (Except CiError Apdu) → Dispatch ω ρ α → Option CiError × Dispatch ω ρ α
  | [], d => (none, d)
  | .error e :: _, d => (some e, d)
  | .ok apdu :: units, d =>
    match d.receiveApdu guests now unixTime session id apdu with
    | (none, d) => receiveAll session id units d
    | (some e, d) => (some e, d)

/-- The application attached to a session that ends is told so and let go. -/
def dismiss (session : SessionId) (d : Dispatch ω ρ α) : Dispatch ω ρ α :=
  match d.applications.get? session with
  | none => d
  | some application =>
    { d with
      applications := d.applications.erase session
      world := guests.applicationClosed session application d.world }

/-- What an event of the session layer means to resources and applications. -/
def event (e : SessionEvent) (d : Dispatch ω ρ α) : Dispatch ω ρ α :=
  let ctx := d.context now unixTime
  match e with
  | .opened session id =>
    let (error, d) := (d.report (.sessionOpened session id)).react id fun resource world =>
      resource.opened guests ctx session world
    d.note error
  | .created session id status => d.report (.sessionCreated session id status)
  | .data session id data =>
    let (error, d) := d.receiveAll guests now unixTime session id (Apdu.items data)
    d.note error
  | .closed session id =>
    let (_, d) := (d.dismiss guests session).react id fun resource world =>
      resource.closed guests ctx session world
    d.report (.sessionClosed session id)

def handler : Handler (Dispatch ω ρ α) where
  lookup _ requested d := (d.registry.lookup requested, d)
  event := event guests now unixTime

/-- Polls resources in turn. -/
def pollEach (ctx : Context) : List ResourceId → Dispatch ω ρ α → Dispatch ω ρ α
  | [], d => d
  | id :: ids, d =>
    let (error, d) := d.react id fun resource world => resource.poll guests ctx world
    pollEach ctx ids (d.note error)

end Dispatch

/-- A host: its session layer, its resources, and applications attached to sessions. -/
structure CommonInterface (ρ α : Type) where
  sessions : SessionLayer TransportLayer
  registry : Registry (HostResource ρ)
  applications : KeyedList SessionId α
  lastError : Option CiError

namespace CommonInterface

variable {ω ρ α : Type}

def new (transport : TransportLayer) (maxSessions : Nat) : CommonInterface ρ α :=
  ⟨.new transport maxSessions, [], [], none⟩

/-! ## Resources and applications -/

def register (ci : CommonInterface ρ α) (resource : HostResource ρ) :
    Except CiError (CommonInterface ρ α) :=
  (ci.registry.register resource.id resource).map fun registry => { ci with registry := registry }

/-- Registers resources in order until one is refused. -/
def registerAll : List (HostResource ρ) → CommonInterface ρ α →
    CommonInterface ρ α × Option CiError
  | [], ci => (ci, none)
  | r :: rs, ci =>
    match ci.register r with
    | .ok ci => registerAll rs ci
    | .error e => (ci, some e)

/-- Registers the resources that come with the library. -/
def registerStandard (ci : CommonInterface ρ α) (localOffset : Option Int16) :
    CommonInterface ρ α × Option CiError :=
  registerAll (HostResource.standard localOffset) ci

/-- Attaches an application to an active session, in place of any before it. -/
def attach (ci : CommonInterface ρ α) (session : SessionId) (application : α) :
    Except CiError (CommonInterface ρ α) :=
  if (ci.sessions.table.resourceOf session).isNone then .error .badSession
  else .ok { ci with applications := ci.applications.put session application }

/-- Takes the application from a session, and returns it if there is one. -/
def detach (ci : CommonInterface ρ α) (session : SessionId) : Option α × CommonInterface ρ α :=
  (ci.applications.get? session, { ci with applications := ci.applications.erase session })

/-- The last error, which is then forgotten. -/
def takeError (ci : CommonInterface ρ α) : Option CiError × CommonInterface ρ α :=
  (ci.lastError, { ci with lastError := none })

/-! ## Polling -/

/-- Sends what was queued, on sessions that are still active; the last error is kept. -/
def sendAll : List (SessionId × Bytes) → (error : Option CiError) → SessionLayer TransportLayer →
    Option CiError × SessionLayer TransportLayer
  | [], error, l => (error, l)
  | (session, apdu) :: outbox, error, l =>
    match l.sendApdu TransportLayer.carrier session apdu with
    | .ok l => sendAll outbox error l
    | .error e => sendAll outbox (some e) l

/-- Takes up what has come from the modules, polls the resources and sends what they have queued.
The error that is remembered is the last one, where those of resources and applications count as
later than those of the layers below that occurred while they were called. -/
def poll (link : Link ω) (guests : Guests ω ρ α) (now : Nat) (unixTime : Int)
    (ci : CommonInterface ρ α) (world : ω) : CommonInterface ρ α × List CiEvent × ω :=
  let start (world : ω) : Dispatch ω ρ α :=
    ⟨ci.registry, ci.applications, .empty, .empty, none, world⟩
  match ci.sessions.poll link (Dispatch.handler guests now unixTime) now world start with
  | (⟨sessions, d⟩, error) =>
    let d := { d with error := d.error <|> error <|> ci.lastError }
    let d := d.pollEach guests (d.context now unixTime) d.registry.keys
    match sendAll d.outbox.toList d.error sessions with
    | (error, sessions) =>
      (⟨sessions, d.registry, d.applications, error⟩, d.events.toList, d.world)

/-! ## Requests of the user -/

/-- Sends a program to descramble on all sessions for that. -/
def sendCaPmt (ci : CommonInterface ρ α) (c : CaPmt) : Except CiError Nat × CommonInterface ρ α :=
  match c.apdu with
  | .error e => (.error e, ci)
  | .ok apdu =>
    match ci.sessions.broadcast TransportLayer.carrier .conditionalAccess apdu with
    | (sent, sessions) => (sent, { ci with sessions := sessions })

/-- Sends a unit on a session. -/
def sendUnit (ci : CommonInterface ρ α) (session : SessionId) (unit : Except CiError Bytes) :
    Except CiError (CommonInterface ρ α) := do
  let sessions ← ci.sessions.sendApdu TransportLayer.carrier session (← unit)
  return { ci with sessions := sessions }

/-- Asks the module in a slot to show its menu. Where it has several sessions for that, the order of
`SessionTable.active` settles which is asked; no result depends on the choice. -/
def enterMenu (ci : CommonInterface ρ α) (slot : Nat) : Except CiError (CommonInterface ρ α) :=
  let serves (p : SessionId × ResourceId) : Bool :=
    p.1.slot == slot && p.2.sameResource .applicationInformation
  match ci.sessions.table.active.find? serves with
  | none => .error .resourceUnavailable
  | some (session, _) => ci.sendUnit session ApplicationInfo.enterMenu

def answerMenu (ci : CommonInterface ρ α) (session : SessionId) (choice : UInt8) :
    Except CiError (CommonInterface ρ α) :=
  ci.sendUnit session (Menu.choice choice)

def answerEnquiry (ci : CommonInterface ρ α) (session : SessionId) (text : Option String) :
    Except CiError (CommonInterface ρ α) :=
  ci.sendUnit session (Menu.answer text)

def closeMmi (ci : CommonInterface ρ α) (session : SessionId) :
    Except CiError (CommonInterface ρ α) :=
  ci.sendUnit session Menu.close

end CommonInterface

end DvbHost.Ci
