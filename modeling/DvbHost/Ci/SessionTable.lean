import DvbHost.Ci.Error
import DvbHost.Ci.SessionEvent
import DvbHost.KeyedList
import Std.Data.TreeMap.Basic

/-!
# The table of sessions

The sessions of every transport connection by their numbers, and how many there are in all. A new
session of a connection gets the first number after the last one given there that is in use by no
session and is not 0. The table forgets a connection as a whole when it ends.
-/

namespace DvbHost.Ci

set_option autoImplicit false

inductive SessionPhase where
  /-- The host has asked for the session. -/
  | creating
  | active
  /-- The host has asked for its end. -/
  | closing
  deriving DecidableEq

structure Session where
  resource : ResourceId
  phase : SessionPhase
  deriving DecidableEq

namespace Session

/-- Whether the session has been reported as opened and not as closed. -/
def isOpen (s : Session) : Bool := s.phase == .active || s.phase == .closing

end Session

/-- The sessions of one transport connection. -/
structure ConnectionSessions where
  /-- The number given last. -/
  last : UInt16
  sessions : Std.TreeMap UInt16 Session

namespace ConnectionSessions

def empty : ConnectionSessions := ⟨0, ∅⟩

/-- The first of the `fuel` numbers after `n` that is free. -/
def freeAfter (c : ConnectionSessions) : (fuel : Nat) → (n : UInt16) → Option UInt16
  | 0, _ => none
  | fuel + 1, n =>
    let next := n + 1
    if next ≠ 0 ∧ !c.sessions.contains next then some next else freeAfter c fuel next

/-- The number for a new session, found among all that there are. -/
def free? (c : ConnectionSessions) : Option UInt16 := c.freeAfter 65536 c.last

end ConnectionSessions

structure SessionTable where
  /-- The most sessions at one time. -/
  capacity : Nat
  /-- By slot and transport connection. -/
  connections : KeyedList (Nat × UInt8) ConnectionSessions
  /-- How many sessions there are. -/
  count : Nat

namespace SessionTable

def new (maxSessions : Nat) : SessionTable := ⟨min maxSessions 65534, [], 0⟩

/-- The sessions of a connection; none of one that is not known. -/
def onConnection (t : SessionTable) (slot : Nat) (tcid : UInt8) : ConnectionSessions :=
  (t.connections.get? (slot, tcid)).getD .empty

def get? (t : SessionTable) (id : SessionId) : Option Session :=
  (t.onConnection id.slot id.tcid).sessions[id.number]?

/-- The resource of an active session. -/
def resourceOf (t : SessionTable) (id : SessionId) : Option ResourceId :=
  (t.get? id).bind fun s => if s.phase = .active then some s.resource else none

/-- The active sessions of one connection, here in order of their numbers. -/
def activeOn (key : Nat × UInt8) (c : ConnectionSessions) : List (SessionId × ResourceId) :=
  c.sessions.toList.filterMap fun (number, s) =>
    if s.phase = .active then some (⟨key.1, key.2, number⟩, s.resource) else none

/-- All active sessions, here in the order in which their connections came. Tables that are kept by
hashing list them in an order of their own; what is proved of the uses of this list holds of every
list of sessions, in whatever order. -/
def active (t : SessionTable) : List (SessionId × ResourceId) :=
  t.connections.flatMap fun (key, c) => activeOn key c

/-- The number for a new session of a connection. -/
def allocate (t : SessionTable) (slot : Nat) (tcid : UInt8) : Except CiError UInt16 :=
  if t.capacity ≤ t.count then .error .tooManySessions
  else
    match (t.onConnection slot tcid).free? with
    | some number => .ok number
    | none => .error .tooManySessions

/-- Gives a connection its sessions. -/
def put (t : SessionTable) (slot : Nat) (tcid : UInt8) (c : ConnectionSessions) : SessionTable :=
  { t with connections := t.connections.put (slot, tcid) c }

/-- Puts in a session under a number that no session has. -/
def insert (t : SessionTable) (id : SessionId) (s : Session) : SessionTable :=
  let c := t.onConnection id.slot id.tcid
  let t := t.put id.slot id.tcid ⟨id.number, c.sessions.insert id.number s⟩
  { t with count := t.count + 1 }

/-- Gives a session that is there another phase. -/
def setPhase (t : SessionTable) (id : SessionId) (phase : SessionPhase) : SessionTable :=
  match t.get? id with
  | none => t
  | some s =>
    let c := t.onConnection id.slot id.tcid
    t.put id.slot id.tcid { c with sessions := c.sessions.insert id.number { s with phase := phase } }

def remove (t : SessionTable) (id : SessionId) : SessionTable :=
  match t.get? id with
  | none => t
  | some _ =>
    let c := t.onConnection id.slot id.tcid
    let t := t.put id.slot id.tcid { c with sessions := c.sessions.erase id.number }
    { t with count := t.count - 1 }

/-- Forgets a connection, with the number given last on it. -/
def removeConnection (t : SessionTable) (slot : Nat) (tcid : UInt8) : SessionTable :=
  { t with
    connections := t.connections.erase (slot, tcid)
    count := t.count - (t.onConnection slot tcid).sessions.size }

/-- The ends of all open sessions of a connection, in order of their numbers. -/
def farewells (t : SessionTable) (slot : Nat) (tcid : UInt8) : List SessionEvent :=
  (t.onConnection slot tcid).sessions.toList.filterMap fun (number, s) =>
    if s.isOpen then some (.closed ⟨slot, tcid, number⟩ s.resource) else none

/-- The connections of a slot that the table knows, in order of their numbers. -/
def connectionsOf (t : SessionTable) (slot : Nat) : List UInt8 :=
  (t.connections.keys.filterMap fun key => if key.1 = slot then some key.2 else none).mergeSort

end SessionTable

end DvbHost.Ci
