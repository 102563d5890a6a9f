import DvbHost.Ci.Connection
import DvbHost.Ci.Link

/-!
# Slots

A slot holds at most one module and the ends of its transport connections. A poll of a slot looks
for the module, takes up all responses it has ready and then gives each connection its turn to
send. What becomes known goes to a queue of events in the order in which it happens.
-/

namespace DvbHost.Ci

set_option autoImplicit false

inductive TransportEvent where
  | connection (slot : Nat) (tcid : UInt8) (notice : Notice)
  /-- The module was removed or the slot was given up. -/
  | slotClosed (slot : Nat)
  deriving DecidableEq

inductive SlotState where
  | empty
  /-- The module was reset and is not ready yet. -/
  | starting
  | ready
  /-- The module speaks no transport units. -/
  | unsupported
  deriving DecidableEq

structure Slot where
  device : Nat
  /-- The number of the slot at its device. -/
  number : UInt8
  state : SlotState
  config : SlotConfig
  /-- Connections 1, 2, 3, …, in this order. -/
  connections : List Connection

namespace Slot

def new (device : Nat) (number : UInt8) (config : SlotConfig) (maxConnections : Nat) : Slot :=
  ⟨device, number, .empty, config, List.replicate maxConnections .idle⟩

def connection? (s : Slot) (tcid : UInt8) : Option Connection :=
  if tcid = 0 then none else s.connections[tcid.toNat - 1]?

/-- Connection `tcid` in place of the one there. -/
def put (s : Slot) (tcid : UInt8) (c : Connection) : Slot :=
  { s with connections := s.connections.set (tcid.toNat - 1) c }

/-- Begins the first idle connection, if there is one. -/
def begin? (s : Slot) : Option (UInt8 × Slot) :=
  match s.connections.findIdx? fun c => c.state == .idle with
  | none => none
  | some i =>
    let tcid := UInt8.ofNat (i + 1)
    (s.connection? tcid).map fun c => (tcid, s.put tcid (c.begin tcid))

/-- The events of connection `tcid` and those after it when all of them end now. -/
def farewells (slot : Nat) : (tcid : Nat) → List Connection → List TransportEvent
  | _, [] => []
  | tcid, c :: cs =>
    c.farewell.toList.map (.connection slot (UInt8.ofNat tcid)) ++ farewells slot (tcid + 1) cs

/-- The events of a slot whose module is gone. -/
def closing (slot : Nat) (s : Slot) : List TransportEvent :=
  farewells slot 1 s.connections ++ [.slotClosed slot]

/-- No connection, and no module known of. -/
def cleared (s : Slot) : Slot :=
  { s with state := .empty, connections := s.connections.map fun _ => .idle }

end Slot

/-- A slot at work: itself, what has happened, and the devices. -/
structure SlotRun (ω : Type) where
  slot : Slot
  events : Queue TransportEvent
  world : ω

namespace SlotRun

variable {ω : Type}

def report (id : Nat) (tcid : UInt8) (notice : Option Notice) (r : SlotRun ω) : SlotRun ω :=
  match notice with
  | none => r
  | some n => { r with events := r.events.push (.connection id tcid n) }

def put (tcid : UInt8) (c : Connection) (r : SlotRun ω) : SlotRun ω :=
  { r with slot := r.slot.put tcid c }

def write (link : Link ω) (tcid : UInt8) (unit : Bytes) (r : SlotRun ω) :
    SlotRun ω × Option CiError :=
  match link.write r.slot.device r.slot.number tcid unit r.world with
  | (.ok (), world) => ({ r with world := world }, none)
  | (.error text, world) => ({ r with world := world }, some (.device text))

/-! ## Receiving -/

/-- The module wants a connection of its own: it gets the number of one that is begun, or an error
if all are taken. -/
def answerRequest (link : Link ω) (tcid : UInt8) (r : SlotRun ω) : SlotRun ω × Option CiError :=
  match r.slot.begin? with
  | some (new, slot) =>
    { r with slot := slot }.write link tcid (Connection.control .newTc tcid (some new))
  | none => r.write link tcid (Connection.control .tcError tcid (some 1))

/-- The module ends a connection: it is reset, and its end is reported once the reply is out. -/
def answerDelete (link : Link ω) (id : Nat) (tcid : UInt8) (o : Connection.Outcome)
    (r : SlotRun ω) : SlotRun ω × Option CiError :=
  match (r.put tcid o.connection).write link tcid (Connection.control .deleteTcReply tcid none) with
  | (r, none) => (r.report id tcid o.notice, none)
  | (r, some e) => (r, some e)

/-- One unit from the module. -/
def handle (link : Link ω) (id : Nat) (t : Tpdu) (r : SlotRun ω) : SlotRun ω × Option CiError :=
  match r.slot.connection? t.tcid with
  | none => (r, some .badConnection)
  | some c =>
    let o := { c with awaiting := none }.receive r.slot.config.maxSpduSize t
    match t.tag with
    | .deleteTc => r.answerDelete link id t.tcid o
    | .requestTc => (r.put t.tcid o.connection).answerRequest link t.tcid
    | _ => ((r.put t.tcid o.connection).report id t.tcid o.notice, o.error)

/-- Units in order; one that fails does not keep the others from being handled, and the first error
is the one that is kept. -/
def handleAll (link : Link ω) (id : Nat) :
    List Tpdu → SlotRun ω → Option CiError → SlotRun ω × Option CiError
  | [], r, error => (r, error)
  | t :: ts, r, error =>
    match r.handle link id t with
    | (r, e) => handleAll link id ts r (error <|> e)

/-- At most `fuel` responses. -/
def receiveWithin (link : Link ω) (id : Nat) :
    (fuel : Nat) → SlotRun ω → Option CiError → SlotRun ω × Option CiError
  | 0, r, error => (r, error)
  | fuel + 1, r, error =>
    match link.read r.slot.device r.slot.number r.slot.config.room r.world with
    | (.error text, world) => ({ r with world := world }, some (.device text))
    | (.ok none, world) => ({ r with world := world }, error)
    | (.ok (some response), world) =>
      let r := { r with world := world }
      if r.slot.config.room < response.length then (r, some .lengthMismatch)
      else
        match Tpdu.readResponse response with
        | .error e => (r, some e)
        | .ok units =>
          match handleAll link id units r error with
          | (r, error) => receiveWithin link id fuel r error

/-- All responses that are ready. A response that cannot be read ends it. -/
def receive (link : Link ω) (id : Nat) (r : SlotRun ω) : SlotRun ω × Option CiError :=
  receiveWithin link id (link.burst r.slot.device r.slot.number r.world) r none

/-! ## Sending -/

/-- Gives the `count` connections from `tcid` on their turns to send. A connection that times out
ends and the others go on; when the device fails, the others wait for the next poll. -/
def sendFrom (link : Link ω) (id now : Nat) :
    (count : Nat) → (tcid : UInt8) → SlotRun ω → Option CiError → SlotRun ω × Option CiError
  | 0, _, r, error => (r, error)
  | count + 1, tcid, r, error =>
    match r.slot.connection? tcid with
    | none => (r, error)
    | some c =>
      match c.duty r.slot.config tcid now with
      | .nothing => sendFrom link id now count (tcid + 1) r error
      | .timedOut =>
        sendFrom link id now count (tcid + 1) ((r.put tcid .idle).report id tcid c.farewell)
          (some .slotTimeout)
      | .send unit left =>
        match (r.put tcid left).write link tcid unit with
        | (r, some e) => (r, some e)
        | (r, none) =>
          sendFrom link id now count (tcid + 1) (r.put tcid (left.sent now)) error

def send (link : Link ω) (id now : Nat) (r : SlotRun ω) : SlotRun ω × Option CiError :=
  sendFrom link id now r.slot.connections.length 1 r none

/-! ## Polling -/

/-- Receives and then, if all of it went well, sends. -/
def exchange (link : Link ω) (id now : Nat) (r : SlotRun ω) : SlotRun ω × Option CiError :=
  match r.receive link id with
  | (r, some e) => (r, some e)
  | (r, none) => r.send link id now

/-- A module was put in. -/
def greet (link : Link ω) (r : SlotRun ω) : SlotRun ω × Option CiError :=
  match link.reset r.slot.device r.slot.number r.world with
  | (.error text, world) => ({ r with world := world }, some (.device text))
  | (.ok (), world) => ({ r with world := world, slot := { r.slot with state := .starting } }, none)

/-- The module is gone. -/
def clear (id : Nat) (r : SlotRun ω) : SlotRun ω :=
  { r with slot := r.slot.cleared, events := r.events.append (r.slot.closing id) }

/-- The module is ready for the first time: its first connection is begun. -/
def start (link : Link ω) (id now : Nat) (r : SlotRun ω) : SlotRun ω × Option CiError :=
  match link.linkType r.slot.device r.slot.number r.world with
  | (.error text, world) => ({ r with world := world }, some (.device text))
  | (.ok .highLevel, world) =>
    ({ r with world := world, slot := { r.slot with state := .unsupported } }, some .unsupported)
  | (.ok .packets, world) =>
    let r := { r with world := world, slot := { r.slot with state := .ready } }
    match r.slot.begin? with
    | none => (r, some .tooManyConnections)
    | some (_, slot) => { r with slot := slot }.exchange link id now

def poll (link : Link ω) (id now : Nat) (r : SlotRun ω) : SlotRun ω × Option CiError :=
  match link.status r.slot.device r.slot.number r.world with
  | (.error text, world) => ({ r with world := world }, some (.device text))
  | (.ok status, world) =>
    let r := { r with world := world }
    match r.slot.state, status with
    | .empty, .missing => (r, none)
    | .empty, _ => r.greet link
    | _, .missing => (r.clear id, none)
    | .starting, .ready => r.start link id now
    | .ready, _ => r.exchange link id now
    | _, _ => (r, none)

end SlotRun

end DvbHost.Ci
