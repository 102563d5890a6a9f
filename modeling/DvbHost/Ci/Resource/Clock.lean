import DvbHost.Calendar.DateTime
import DvbHost.Ci.Resource.Basic
import DvbHost.KeyedList

/-!
# Date and time

A module asks for the time once, or for its repetition after every so many seconds. The time is
sent at once and, on a schedule, whenever its interval has passed since it was last sent.
-/

namespace DvbHost.Ci

set_option autoImplicit false

/-- A repetition; both times are in milliseconds. -/
structure Schedule where
  interval : Nat
  lastSent : Nat
  deriving DecidableEq

namespace Schedule

def isDue (now : Nat) (s : Schedule) : Bool := s.interval ≤ now - s.lastSent

end Schedule

structure Clock where
  /-- Minutes from universal to local time, sent with the time if known. -/
  localOffset : Option Int16
  schedules : KeyedList SessionId Schedule

namespace Clock

def empty (localOffset : Option Int16) : Clock := ⟨localOffset, []⟩

def tagEnquiry : Nat := 0x9F8440
def tagTime : Nat := 0x9F8441

/-- The body of the unit that tells the time. -/
def body (c : Clock) (unixTime : Int) : Bytes :=
  (DateTime.ofUnix unixTime).toBytes ++
    match c.localOffset with
    | some minutes => Bytes.ofUInt16 minutes.toUInt16
    | none => []

/-- Interval 0 asks for no repetition. -/
def reschedule (c : Clock) (session : SessionId) (seconds now : Nat) : Clock :=
  if seconds = 0 then { c with schedules := c.schedules.erase session }
  else { c with schedules := c.schedules.put session ⟨seconds * 1000, now⟩ }

def receive (ctx : Context) (c : Clock) (session : SessionId) (apdu : Apdu) : Reaction Clock :=
  if apdu.tag = tagEnquiry then
    let seconds := (apdu.data.headD 0).toNat
    .send (c.reschedule session seconds ctx.now) session tagTime (c.body ctx.unixTime)
  else .fail c (.protocolViolation .unexpectedApdu)

def closed (c : Clock) (session : SessionId) : Clock :=
  { c with schedules := c.schedules.erase session }

/-- The sessions whose interval has passed, here in the order in which they first asked. What is
proved of them is proved of each session on its own, so it does not depend on the order. -/
def due (c : Clock) (now : Nat) : List SessionId :=
  KeyedList.keys (c.schedules.filter fun p => p.2.isDue now)

/-- Takes note that the time is sent on every schedule that is due. -/
def restart (c : Clock) (now : Nat) : Clock :=
  { c with schedules := c.schedules.map fun p =>
      if p.2.isDue now then (p.1, ⟨p.2.interval, now⟩) else p }

def poll (ctx : Context) (c : Clock) : Reaction Clock :=
  match c.due ctx.now, Apdu.encode tagTime (c.body ctx.unixTime) with
  | [], _ => .done c
  | _, .error e => .fail (c.restart ctx.now) e
  | sessions, .ok apdu => ⟨c.restart ctx.now, sessions.map (·, apdu), [], none⟩

end Clock

end DvbHost.Ci
