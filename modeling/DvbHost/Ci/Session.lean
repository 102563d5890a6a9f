import DvbHost.Ci.SessionTable
import DvbHost.Ci.Spdu
import DvbHost.Ci.Transport

/-!
# The session layer

Sessions are opened by either side and closed by either side, with units that a transport layer
carries. The layer is written for any carrier that can queue data on a connection or refuse it,
and for any handler that answers a module's wish for a resource and is told what happens.
-/

namespace DvbHost.Ci

set_option autoImplicit false

/-- What carries the data of a connection. -/
structure Carrier (τ : Type) where
  send : (slot : Nat) → (tcid : UInt8) → Bytes → τ → Except CiError τ

/-- The carrier that a transport layer is. -/
def TransportLayer.carrier : Carrier TransportLayer := ⟨fun slot tcid data l => l.sendData slot tcid data⟩

/-- Who is told of sessions. -/
structure Handler (η : Type) where
  /-- The host's resource for a module's request, or why there is none. -/
  lookup : (slot : Nat) → (requested : ResourceId) → η → Except SessionStatus ResourceId × η
  event : SessionEvent → η → η

structure SessionLayer (τ : Type) where
  table : SessionTable
  transport : τ

namespace SessionLayer

variable {τ η : Type}

def new (transport : τ) (maxSessions : Nat) : SessionLayer τ := ⟨.new maxSessions, transport⟩

/-- Queues a unit; a carrier that refuses it is left as it was. -/
def send (carrier : Carrier τ) (l : SessionLayer τ) (slot : Nat) (tcid : UInt8) (unit : Spdu) :
    Except CiError (SessionLayer τ) :=
  (carrier.send slot tcid unit.toBytes l.transport).map fun t => { l with transport := t }

/-! ## What the host asks for -/

/-- Asks the module for a session to a resource of its own. -/
def create (carrier : Carrier τ) (l : SessionLayer τ) (slot : Nat) (tcid : UInt8)
    (resource : ResourceId) : Except CiError (SessionId × SessionLayer τ) := do
  let number ← l.table.allocate slot tcid
  let l ← l.send carrier slot tcid (.createSession resource number)
  let id := ⟨slot, tcid, number⟩
  return (id, { l with table := l.table.insert id ⟨resource, .creating⟩ })

/-- Asks the module for the end of an active session. -/
def destroy (carrier : Carrier τ) (l : SessionLayer τ) (id : SessionId) :
    Except CiError (SessionLayer τ) := do
  if (l.table.resourceOf id).isNone then throw .badSession
  let l ← l.send carrier id.slot id.tcid (.closeSessionRequest id.number)
  return { l with table := l.table.setPhase id .closing }

/-- Sends application units on an active session. -/
def sendApdu (carrier : Carrier τ) (l : SessionLayer τ) (id : SessionId) (apdu : Bytes) :
    Except CiError (SessionLayer τ) := do
  if (l.table.resourceOf id).isNone then throw .badSession
  l.send carrier id.slot id.tcid (.sessionNumber id.number apdu)

/-- Sends on sessions in turn: the last error, if there was one, or else how many it went to. -/
def sendEach (carrier : Carrier τ) (apdu : Bytes) :
    List SessionId → (result : Except CiError Nat) → SessionLayer τ →
      Except CiError Nat × SessionLayer τ
  | [], result, l => (result, l)
  | id :: ids, result, l =>
    match l.sendApdu carrier id apdu with
    | .ok l => sendEach carrier apdu ids (result.map (· + 1)) l
    | .error e => sendEach carrier apdu ids (.error e) l

/-- Sends on all active sessions to the same resource, whatever its version. The order in which
they are served is not fixed by the protocol, and no result depends on it: what is proved of a
broadcast is proved of `sendEach` on any sessions in any order. -/
def broadcast (carrier : Carrier τ) (l : SessionLayer τ) (resource : ResourceId) (apdu : Bytes) :
    Except CiError Nat × SessionLayer τ :=
  let targets := l.table.active.filter fun p => p.2.sameResource resource
  sendEach carrier apdu (targets.map Prod.fst) (.ok 0) l

end SessionLayer

/-! ## What the module and the transport layer bring -/

/-- A session layer together with its handler. -/
structure Dialogue (τ η : Type) where
  layer : SessionLayer τ
  handler : η

namespace Dialogue

variable {τ η : Type}

def withTable (d : Dialogue τ η) (f : SessionTable → SessionTable) : Dialogue τ η :=
  { d with layer := { d.layer with table := f d.layer.table } }

def tell (h : Handler η) (d : Dialogue τ η) (e : SessionEvent) : Dialogue τ η :=
  { d with handler := h.event e d.handler }

/-- Queues a unit and goes on if that succeeds. -/
def sending (carrier : Carrier τ) (d : Dialogue τ η) (slot : Nat) (tcid : UInt8) (unit : Spdu)
    (next : Dialogue τ η → Dialogue τ η) : Dialogue τ η × Option CiError :=
  match d.layer.send carrier slot tcid unit with
  | .ok l => (next { d with layer := l }, none)
  | .error e => (d, some e)

/-- Data is for an active session. -/
def receiveData (h : Handler η) (d : Dialogue τ η) (id : SessionId) (data : Bytes) :
    Dialogue τ η × Option CiError :=
  match d.layer.table.resourceOf id with
  | none => (d, some .badSession)
  | some resource => (d.tell h (.data id resource data), none)

/-- The resource and the number for a session that a module wants, or the status that refuses it:
the handler's, or that the host is busy. -/
def offer (h : Handler η) (d : Dialogue τ η) (slot : Nat) (tcid : UInt8) (requested : ResourceId) :
    Except SessionStatus (ResourceId × UInt16) × Dialogue τ η :=
  match h.lookup slot requested d.handler with
  | (.error status, handler) => (.error status, { d with handler := handler })
  | (.ok resource, handler) =>
    match d.layer.table.allocate slot tcid with
    | .error _ => (.error .busy, { d with handler := handler })
    | .ok number => (.ok (resource, number), { d with handler := handler })

/-- The module wants a session to a resource of the host. -/
def openRequest (carrier : Carrier τ) (h : Handler η) (d : Dialogue τ η) (slot : Nat) (tcid : UInt8)
    (requested : ResourceId) : Dialogue τ η × Option CiError :=
  match d.offer h slot tcid requested with
  | (.error status, d) =>
    d.sending carrier slot tcid (.openSessionResponse status requested 0) id
  | (.ok (resource, number), d) =>
    d.sending carrier slot tcid (.openSessionResponse .ok resource number) fun d =>
      let id := ⟨slot, tcid, number⟩
      (d.withTable (·.insert id ⟨resource, .active⟩)).tell h (.opened id resource)

/-- The module answers the host's wish for a session. -/
def createResponse (h : Handler η) (d : Dialogue τ η) (id : SessionId) (resource : ResourceId)
    (status : SessionStatus) : Dialogue τ η × Option CiError :=
  if (d.layer.table.get? id).map Session.phase ≠ some .creating then
    (d, some (.protocolViolation .unexpectedCreateSessionResponse))
  else
    let d := d.withTable fun t => if status = .ok then t.setPhase id .active else t.remove id
    (d.tell h (.created id resource status), none)

/-- The module ends a session. One that was never opened ends without a word. -/
def closeRequest (carrier : Carrier τ) (h : Handler η) (d : Dialogue τ η) (id : SessionId) :
    Dialogue τ η × Option CiError :=
  match d.layer.table.get? id with
  | none =>
    d.sending carrier id.slot id.tcid (.closeSessionResponse .noResource id.number) fun d => d
  | some s =>
    let d := if s.isOpen then d.tell h (.closed id s.resource) else d
    (d.withTable (·.remove id)).sending carrier id.slot id.tcid
      (.closeSessionResponse .ok id.number) fun d => d

/-- The module agrees to the end of a session; its status does not matter. -/
def closeResponse (h : Handler η) (d : Dialogue τ η) (id : SessionId) :
    Dialogue τ η × Option CiError :=
  match d.layer.table.get? id with
  | none => (d, some (.protocolViolation .unexpectedCloseSessionResponse))
  | some s =>
    if s.phase = .closing then
      ((d.withTable (·.remove id)).tell h (.closed id s.resource), none)
    else (d, some (.protocolViolation .unexpectedCloseSessionResponse))

/-- A unit on a connection. -/
def receive (carrier : Carrier τ) (h : Handler η) (d : Dialogue τ η) (slot : Nat) (tcid : UInt8) :
    Spdu → Dialogue τ η × Option CiError
  | .sessionNumber number body => d.receiveData h ⟨slot, tcid, number⟩ body
  | .openSessionRequest requested => d.openRequest carrier h slot tcid requested
  | .createSessionResponse status resource number =>
    d.createResponse h ⟨slot, tcid, number⟩ resource status
  | .closeSessionRequest number => d.closeRequest carrier h ⟨slot, tcid, number⟩
  | .closeSessionResponse _ number => d.closeResponse h ⟨slot, tcid, number⟩
  | .openSessionResponse .. | .createSession .. => (d, some (.protocolViolation .hostSpdu))

/-- A connection is gone, and all its sessions with it. -/
def closeConnection (h : Handler η) (slot : Nat) (d : Dialogue τ η) (tcid : UInt8) :
    Dialogue τ η :=
  (d.layer.table.farewells slot tcid).foldl (tell h) (d.withTable (·.removeConnection slot tcid))

def process (carrier : Carrier τ) (h : Handler η) (d : Dialogue τ η) :
    TransportEvent → Dialogue τ η × Option CiError
  | .connection _ _ .opened => (d, none)
  | .connection slot tcid (.data data) =>
    match Spdu.read data with
    | .error e => (d, some e)
    | .ok unit => d.receive carrier h slot tcid unit
  | .connection slot tcid .closed => (d.closeConnection h slot tcid, none)
  | .slotClosed slot =>
    ((d.layer.table.connectionsOf slot).foldl (closeConnection h slot) d, none)

/-- Events in order. The last error is the one that is kept. -/
def processAll (carrier : Carrier τ) (h : Handler η) :
    List TransportEvent → Dialogue τ η → Option CiError → Dialogue τ η × Option CiError
  | [], d, error => (d, error)
  | e :: es, d, error =>
    match d.process carrier h e with
    | (d, none) => processAll carrier h es d error
    | (d, some e) => processAll carrier h es d (some e)

end Dialogue

namespace SessionLayer

variable {ω η : Type}

/-- Polls the transport layer and then handles what has happened there. The handler's state is made
of the world that the poll leaves. -/
def poll (link : Link ω) (h : Handler η) (now : Nat) (l : SessionLayer TransportLayer) (world : ω)
    (start : ω → η) : Dialogue TransportLayer η × Option CiError :=
  match l.transport.poll link now world with
  | (transport, events, world) =>
    Dialogue.processAll TransportLayer.carrier h events
      ⟨{ l with transport := transport }, start world⟩ none

end SessionLayer

end DvbHost.Ci
