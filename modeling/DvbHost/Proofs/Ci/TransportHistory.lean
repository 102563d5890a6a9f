import DvbHost.Proofs.Ci.ConnectionEpisodes
import DvbHost.Proofs.Ci.ConnectionLife

/-!
# The history of a transport layer

A run of a transport layer is written down moment by moment, each under the connection that it is a
moment of; the writing follows the recursion of the polls. The main result is that nothing is left
out or made up: what is written under a connection is a `Life` of it from the idle state to the one
it has in the layer, and its notices are what the polls tell.
-/

namespace DvbHost.Ci

set_option autoImplicit false

open Connection TransportEvent

variable {ω : Type}

/-- A moment in the life of one connection. -/
structure Entry where
  slot : Nat
  tcid : UInt8
  moment : Moment

/-- The moments that are written under a connection. -/
def momentsOf (slot : Nat) (tcid : UInt8) (es : List Entry) : List Moment :=
  es.filterMap fun e => if e.slot = slot ∧ e.tcid = tcid then some e.moment else none

/-- What is told in some moments. -/
def noticesIn (ms : List Moment) : List Notice := ms.filterMap Moment.notice

theorem momentsOf_append (slot : Nat) (tcid : UInt8) (es es' : List Entry) :
    momentsOf slot tcid (es ++ es') = momentsOf slot tcid es ++ momentsOf slot tcid es' :=
  List.filterMap_append

theorem momentsOf_eq_nil {slot : Nat} (tcid : UInt8) {es : List Entry}
    (h : ∀ e ∈ es, e.slot ≠ slot) : momentsOf slot tcid es = [] :=
  List.filterMap_eq_nil_iff.mpr fun e he => if_neg fun hc => h e he hc.1

theorem momentsOf_singleton (slot : Nat) (tcid tcid' : UInt8) (m : Moment) :
    momentsOf slot tcid [⟨slot, tcid', m⟩] = if tcid' = tcid then [m] else [] := by
  by_cases h : tcid' = tcid
  · rw [if_pos h]
    exact List.filterMap_cons_some (if_pos ⟨rfl, h⟩)
  · rw [if_neg h]
    exact List.filterMap_cons_none (if_neg fun hc => h hc.2)

theorem noticesIn_append (ms ms' : List Moment) :
    noticesIn (ms ++ ms') = noticesIn ms ++ noticesIn ms' := List.filterMap_append

/-! ## Writing it down -/

namespace Slot

/-- A connection of the slot. Under a number that the slot does not have, nothing ever happens. -/
def connectionD (s : Slot) (tcid : UInt8) : Connection := (s.connection? tcid).getD .idle

/-- The beginning of the first idle connection. -/
def begins (id : Nat) (s : Slot) : List Entry :=
  match s.begin? with
  | none => []
  | some (tcid, s) => [⟨id, tcid, .begun, none, s.connectionD tcid⟩]

/-- The end of connection `tcid` and those after it. -/
def endsFrom (id : Nat) : (tcid : Nat) → List Connection → List Entry
  | _, [] => []
  | tcid, c :: cs => ⟨id, UInt8.ofNat tcid, .gone, c.farewell, .idle⟩ :: endsFrom id (tcid + 1) cs

end Slot

namespace SlotRun

variable (link : Link ω) (id now : Nat)

/-- A unit is taken up. -/
def takes (t : Tpdu) (r : SlotRun ω) : List Entry :=
  match r.slot.connection? t.tcid with
  | none => []
  | some c =>
    let o := { c with awaiting := none }.receive r.slot.config.maxSpduSize t
    match t.tag with
    | .deleteTc =>
      match (r.put t.tcid o.connection).write link t.tcid
        (control .deleteTcReply t.tcid none) with
      | (_, none) => [⟨id, t.tcid, .taken t, o.notice, o.connection⟩]
      | (_, some _) => [⟨id, t.tcid, .taken t, none, o.connection⟩]
    | .requestTc =>
      ⟨id, t.tcid, .taken t, none, o.connection⟩ :: (r.put t.tcid o.connection).slot.begins id
    | _ => [⟨id, t.tcid, .taken t, o.notice, o.connection⟩]

/-- Units are taken up in turn. -/
def takesAll (ms : List (Meeting ω)) : List Entry :=
  ms.flatMap fun m => m.run.takes link m.slot m.unit

/-- The `count` connections from `tcid` on have their turns to send. -/
def turnsFrom : (count : Nat) → (tcid : UInt8) → SlotRun ω → List Entry
  | 0, _, _ => []
  | count + 1, tcid, r =>
    match r.slot.connection? tcid with
    | none => []
    | some c =>
      match c.duty r.slot.config tcid now with
      | .nothing => turnsFrom count (tcid + 1) r
      | .timedOut =>
        ⟨id, tcid, .timedOut, c.farewell, .idle⟩ ::
          turnsFrom count (tcid + 1) ((r.put tcid .idle).report id tcid c.farewell)
      | .send unit left =>
        match (r.put tcid left).write link tcid unit with
        | (_, some _) => [⟨id, tcid, .sent c.reason unit false, none, left⟩]
        | (r, none) =>
          ⟨id, tcid, .sent c.reason unit true, none, left.sent now⟩ ::
            turnsFrom count (tcid + 1) (r.put tcid (left.sent now))

def exchanges (r : SlotRun ω) : List Entry :=
  takesAll link (r.meetings link id) ++
    match r.receive link id with
    | (_, some _) => []
    | (r, none) => turnsFrom link id now r.slot.connections.length 1 r

def starts (r : SlotRun ω) : List Entry :=
  match link.linkType r.slot.device r.slot.number r.world with
  | (.ok .packets, world) =>
    let r := { r with world := world, slot := { r.slot with state := .ready } }
    match r.slot.begin? with
    | none => []
    | some (_, slot) => r.slot.begins id ++ { r with slot := slot }.exchanges link id now
  | _ => []

/-- What happens in a poll of a slot. -/
def polls (r : SlotRun ω) : List Entry :=
  match link.status r.slot.device r.slot.number r.world with
  | (.error _, _) => []
  | (.ok status, world) =>
    let r := { r with world := world }
    match r.slot.state, status with
    | .empty, _ => []
    | _, .missing => Slot.endsFrom id 1 r.slot.connections
    | .starting, .ready => r.starts link id now
    | .ready, _ => r.exchanges link id now
    | _, _ => []

end SlotRun

namespace TransportLayer

/-- A connection of the layer. -/
def connectionAt (slots : List (Option Slot)) (i : Nat) (tcid : UInt8) : Connection :=
  (slots[i]?.join.map (·.connectionD tcid)).getD .idle

/-- What happens when slots are polled in turn. -/
def sweeps (link : Link ω) (now : Nat) : (id : Nat) → List (Option Slot) → Sweep ω → List Entry
  | _, [], _ => []
  | id, none :: slots, s => sweeps link now (id + 1) slots s
  | id, some slot :: slots, s =>
    SlotRun.polls link id now ⟨slot, s.events, s.world⟩ ++
      sweeps link now (id + 1) slots (pollSlot link now id slot s).2

end TransportLayer

namespace TransportRun

open TransportLayer

/-- The moment of one connection that a request is, if it is granted. -/
def granted {α : Type} (slot : Nat) (tcid : UInt8) (happening : Happening)
    (outcome : Except CiError α) (layer : α → TransportLayer) : List Entry :=
  match outcome with
  | .ok a => [⟨slot, tcid, happening, none, connectionAt (layer a).slots slot tcid⟩]
  | .error _ => []

/-- The units that data is queued as. -/
def unitsFor (l : TransportLayer) (slot : Nat) (tcid : UInt8) (data : Bytes) : List Bytes :=
  match l.slot? slot with
  | none => []
  | some s => (unitsOf tcid (fragments s.config.fragmentSize data)).toOption.getD []

/-- What happens at a request. -/
def happens (link : Link ω) (r : TransportRun ω) : Request → List Entry
  | .register .. => []
  | .destroySlot slot =>
    match r.layer.slot? slot with
    | none => []
    | some s => Slot.endsFrom slot 1 s.connections
  | .newConnection slot =>
    match r.layer.newConnection slot with
    | .ok (tcid, l) => [⟨slot, tcid, .begun, none, connectionAt l.slots slot tcid⟩]
    | .error _ => []
  | .deleteConnection slot tcid =>
    granted slot tcid .ending (r.layer.deleteConnection slot tcid) id
  | .sendData slot tcid data =>
    granted slot tcid (.queued (unitsFor r.layer slot tcid data))
      (r.layer.sendData slot tcid data) id
  | .poll now => sweeps link now 0 r.layer.slots ⟨r.layer.events, r.world, r.layer.lastError⟩

/-- What happens in a run. -/
def history (link : Link ω) : List Request → TransportRun ω → List Entry
  | [], _ => []
  | request :: requests, r =>
    r.happens link request ++ history link requests (r.perform link request)

/-- What happens to one connection in a run from the start. -/
def lifeOf (link : Link ω) (maxSlots maxConnections : Nat) (world : ω) (requests : List Request)
    (slot : Nat) (tcid : UInt8) : List Moment :=
  momentsOf slot tcid (history link requests (start maxSlots maxConnections world))

end TransportRun

end DvbHost.Ci
