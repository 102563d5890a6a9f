import DvbHost.Ci.Slot

/-!
# The transport layer

The slots of a host. Requests from above queue units or change connections; nothing reaches a
device but in a poll, which works on every slot in turn. An error of one slot does not keep the
others from being polled; the last one is remembered.
-/

namespace DvbHost.Ci

set_option autoImplicit false

structure TransportLayer where
  slots : List (Option Slot)
  /-- For each slot, at most 254. -/
  maxConnections : Nat
  /-- What has happened outside of a poll; the next one tells it first. -/
  events : Queue TransportEvent
  /-- The last error of a poll, with the slot it occurred in. -/
  lastError : Option (Nat × CiError)

namespace TransportLayer

def new (maxSlots maxConnections : Nat) : TransportLayer :=
  ⟨List.replicate maxSlots none, min maxConnections 254, .empty, none⟩

def slot? (l : TransportLayer) (slot : Nat) : Option Slot := l.slots[slot]?.join

def putSlot (l : TransportLayer) (slot : Nat) (s : Option Slot) : TransportLayer :=
  { l with slots := l.slots.set slot s }

/-- Takes the first free place for a slot of a device. -/
def register (l : TransportLayer) (device : Nat) (number : UInt8) (config : SlotConfig) :
    Except CiError (Nat × TransportLayer) :=
  match l.slots.findIdx? Option.isNone with
  | none => .error .tooManySlots
  | some i => .ok (i, l.putSlot i (some (.new device number config l.maxConnections)))

/-- Gives up a slot. The next poll tells of the end of its connections. -/
def destroySlot (l : TransportLayer) (slot : Nat) : Except CiError TransportLayer :=
  match l.slot? slot with
  | none => .error .badSlot
  | some s => .ok { l.putSlot slot none with events := l.events.append (s.closing slot) }

/-- Begins a connection in a slot. -/
def newConnection (l : TransportLayer) (slot : Nat) : Except CiError (UInt8 × TransportLayer) :=
  match l.slot? slot with
  | none => .error .badSlot
  | some s =>
    if s.state ≠ .ready then .error .badSlot
    else
      match s.begin? with
      | none => .error .tooManyConnections
      | some (tcid, s) => .ok (tcid, l.putSlot slot (some s))

/-- Changes one connection. -/
def update (l : TransportLayer) (slot : Nat) (tcid : UInt8)
    (f : SlotConfig → Connection → Except CiError Connection) : Except CiError TransportLayer :=
  match l.slot? slot with
  | none => .error .badSlot
  | some s =>
    match s.connection? tcid with
    | none => .error .badConnection
    | some c => (f s.config c).map fun c => l.putSlot slot (some (s.put tcid c))

/-- Asks for the end of an active connection. -/
def deleteConnection (l : TransportLayer) (slot : Nat) (tcid : UInt8) :
    Except CiError TransportLayer :=
  l.update slot tcid fun _ c =>
    if c.state ≠ .active then .error .badConnection else .ok (c.finish tcid)

/-- Queues data on an active connection. -/
def sendData (l : TransportLayer) (slot : Nat) (tcid : UInt8) (data : Bytes) :
    Except CiError TransportLayer :=
  l.update slot tcid fun config c => c.sendData config tcid data

def connectionState (l : TransportLayer) (slot : Nat) (tcid : UInt8) : Option ConnectionState :=
  (l.slot? slot).bind fun s => (s.connection? tcid).map Connection.state

/-! ## Polling -/

/-- What slots that are polled in turn hand on to each other. -/
structure Sweep (ω : Type) where
  events : Queue TransportEvent
  world : ω
  lastError : Option (Nat × CiError)

variable {ω : Type}

/-- Polls one slot. -/
def pollSlot (link : Link ω) (now id : Nat) (slot : Slot) (s : Sweep ω) : Slot × Sweep ω :=
  match SlotRun.poll link id now ⟨slot, s.events, s.world⟩ with
  | (r, none) => (r.slot, ⟨r.events, r.world, s.lastError⟩)
  | (r, some e) => (r.slot, ⟨r.events, r.world, some (id, e)⟩)

/-- Polls slots in turn; the first of them has number `id`. -/
def pollFrom (link : Link ω) (now : Nat) :
    (id : Nat) → List (Option Slot) → Sweep ω → List (Option Slot) × Sweep ω
  | _, [], s => ([], s)
  | id, none :: slots, s =>
    match pollFrom link now (id + 1) slots s with
    | (slots, s) => (none :: slots, s)
  | id, some slot :: slots, s =>
    match pollSlot link now id slot s with
    | (slot, s) =>
      match pollFrom link now (id + 1) slots s with
      | (slots, s) => (some slot :: slots, s)

/-- Works on every slot once and tells what has happened since the last poll. -/
def poll (link : Link ω) (now : Nat) (l : TransportLayer) (world : ω) :
    TransportLayer × List TransportEvent × ω :=
  match pollFrom link now 0 l.slots ⟨l.events, world, l.lastError⟩ with
  | (slots, s) => (⟨slots, l.maxConnections, .empty, s.lastError⟩, s.events.toList, s.world)

end TransportLayer

end DvbHost.Ci
