import DvbHost.Ci.Tpdu
import DvbHost.Queue

/-!
# Transport connections

One end of a connection as a state machine without clock or device. `receive` says what a unit
from the module does to it; `duty` says what it has to send at a given time. Host and module take
turns: after sending, the host waits for any unit on the connection before it sends again.
-/

namespace DvbHost.Ci

set_option autoImplicit false

/-- Times in milliseconds, sizes in octets. -/
structure SlotConfig where
  /-- How long a response may take. -/
  responseTimeout : Nat
  /-- How long to wait with nothing to send before asking the module for data. -/
  pollDelay : Nat
  /-- The largest unit that the link carries. -/
  maxTpduSize : Nat
  /-- The largest message that a chain of fragments may make. -/
  maxSpduSize : Nat
  deriving DecidableEq

namespace SlotConfig

def standard : SlotConfig := ⟨1000, 100, 4096, 65536⟩

/-- A tag, the longest length field and the connection number. -/
def header : Nat := 7

/-- The room offered for a response. -/
def room (c : SlotConfig) : Nat := max c.maxTpduSize (header + 1)

/-- The most data that one unit carries. -/
def fragmentSize (c : SlotConfig) : Nat := max (c.maxTpduSize - header) 1

end SlotConfig

inductive ConnectionState where
  | idle
  /-- Waiting for the module to agree to the connection. -/
  | creation
  | active
  /-- Waiting for the module to agree to its end. -/
  | deletion
  deriving DecidableEq

/-- What becomes known of a connection. -/
inductive Notice where
  | opened
  | data (data : Bytes)
  | closed
  deriving DecidableEq

structure Connection where
  state : ConnectionState
  /-- Whole units to send. -/
  queue : Queue Bytes
  /-- The fragments of a message whose last one has not come yet. -/
  chain : Bytes
  /-- The message coming in was too long; the rest of it is dropped. -/
  discarding : Bool
  /-- When the unit was sent that the module has not answered yet. -/
  awaiting : Option Nat
  /-- The module has said that it has data. -/
  dataAvailable : Bool
  lastSent : Option Nat

namespace Connection

def idle : Connection := ⟨.idle, .empty, [], false, none, false, none⟩

/-- Whether the connection has been reported as opened and not as closed. -/
def isOpen (c : Connection) : Bool := c.state == .active || c.state == .deletion

/-- What there is to report when the connection ends now. -/
def farewell (c : Connection) : Option Notice := if c.isOpen then some .closed else none

/-- A unit with at most one octet of data. -/
def control (tag : TpduTag) (tcid : UInt8) (data : Option UInt8) : Bytes :=
  match data with
  | none => [tag.octet, 1, tcid]
  | some b => [tag.octet, 2, tcid, b]

def enqueue (c : Connection) (unit : Bytes) : Connection := { c with queue := c.queue.push unit }

/-- Asks the module for the connection. -/
def begin (tcid : UInt8) (c : Connection) : Connection :=
  { c with state := .creation }.enqueue (control .createTc tcid none)

/-- Asks the module for the end of the connection; what was queued is dropped. -/
def finish (tcid : UInt8) (c : Connection) : Connection :=
  { c with state := .deletion, queue := .ofList [control .deleteTc tcid none] }

/-! ## Receiving -/

/-- What a unit does to a connection. -/
structure Outcome where
  connection : Connection
  notice : Option Notice
  error : Option CiError

/-- A fragment of a message. -/
def receiveData (maxSize : Nat) (last : Bool) (data : Bytes) (c : Connection) : Outcome :=
  if c.state ≠ .active then ⟨c, none, some .badConnection⟩
  else if c.discarding then ⟨{ c with discarding := !last }, none, none⟩
  else if c.chain.length + data.length > maxSize then
    ⟨{ c with chain := [], discarding := !last }, none, some (.protocolViolation .dataTooLong)⟩
  else
    let whole := c.chain ++ data
    if last && !whole.isEmpty then ⟨{ c with chain := [] }, some (.data whole), none⟩
    else ⟨{ c with chain := whole }, none, none⟩

/-- A unit that needs no answer at once; those that do are answered by the slot. -/
def receive (maxSize : Nat) (t : Tpdu) (c : Connection) : Outcome :=
  match t.tag with
  | .createTcReply =>
    if c.state = .creation then ⟨{ c with state := .active }, some .opened, none⟩
    else ⟨c, none, some (.protocolViolation .unexpectedCreateReply)⟩
  | .deleteTcReply =>
    if c.state = .deletion then ⟨idle, some .closed, none⟩
    else ⟨c, none, some (.protocolViolation .unexpectedDeleteReply)⟩
  | .dataMore => c.receiveData maxSize false t.data
  | .dataLast => c.receiveData maxSize true t.data
  | .sb => ⟨{ c with dataAvailable := t.dataAvailable == some true }, none, none⟩
  | .tcError => ⟨idle, c.farewell, some .slotError⟩
  | .deleteTc => ⟨idle, c.farewell, none⟩
  | .requestTc => ⟨c, none, none⟩
  | .rcv | .createTc | .newTc => ⟨c, none, some (.protocolViolation .hostTpdu)⟩

/-! ## Sending -/

inductive Duty where
  | nothing
  /-- The module has not answered in time. -/
  | timedOut
  /-- To send a unit; the connection is the one that is left without it. -/
  | send (unit : Bytes) (left : Connection)

/-- Whether the module is to be asked for data although nothing is queued. -/
def pollIsDue (config : SlotConfig) (now : Nat) (c : Connection) : Bool :=
  c.state == .active &&
    match c.lastSent with
    | none => true
    | some sent => config.pollDelay ≤ now - sent

/-- Data the module has said it has is fetched first; then what is queued is sent; then the module
is asked for data when it is time. -/
def pending (config : SlotConfig) (tcid : UInt8) (now : Nat) (c : Connection) : Duty :=
  if c.dataAvailable then .send (control .rcv tcid none) { c with dataAvailable := false }
  else
    match c.queue.pop? with
    | some (unit, queue) => .send unit { c with queue := queue }
    | none =>
      if c.pollIsDue config now then .send (control .dataLast tcid none) c else .nothing

def duty (config : SlotConfig) (tcid : UInt8) (now : Nat) (c : Connection) : Duty :=
  if c.state = .idle then .nothing
  else
    match c.awaiting with
    | some sent => if config.responseTimeout ≤ now - sent then .timedOut else .nothing
    | none => c.pending config tcid now

/-- The connection after a unit was sent. -/
def sent (now : Nat) (c : Connection) : Connection :=
  { c with awaiting := some now, lastSent := some now }

/-! ## Fragments -/

/-- Parts of `n` octets, the last one with what is left; at most `fuel` of them. -/
def fragmentsWithin (n : Nat) : (fuel : Nat) → Bytes → List Bytes
  | 0, _ => []
  | fuel + 1, data =>
    match data.drop n with
    | [] => [data]
    | rest => data.take n :: fragmentsWithin n fuel rest

/-- Data in parts of `n` octets, the last one with what is left. No data is one empty part. -/
def fragments (n : Nat) (data : Bytes) : List Bytes := fragmentsWithin n (data.length + 1) data

/-- The parts as units, the last of them marked as such. -/
def unitsOf (tcid : UInt8) : List Bytes → Except CiError (List Bytes)
  | [] => .ok []
  | [last] => do return [← Tpdu.encode .dataLast tcid last]
  | part :: parts => do return (← Tpdu.encode .dataMore tcid part) :: (← unitsOf tcid parts)

/-- Queues data to be sent. -/
def sendData (config : SlotConfig) (tcid : UInt8) (data : Bytes) (c : Connection) :
    Except CiError Connection := do
  if c.state ≠ .active then throw .badConnection
  let units ← unitsOf tcid (fragments config.fragmentSize data)
  return { c with queue := c.queue.append units }

end Connection

end DvbHost.Ci
