import DvbHost.Ci.Transport

/-!
# Runs of a transport layer

A run is any list of requests and polls over devices of which nothing is known. Along with what the
polls tell, a run keeps the units that modules have sent, each with the state that it met; these
follow the recursion of the polls themselves.
-/

namespace DvbHost.Ci

set_option autoImplicit false

variable {ω : Type}

/-! ## Units that are taken up -/

/-- A unit of a module that is taken up in a poll, and the slot at work as it finds it. -/
structure Meeting (ω : Type) where
  slot : Nat
  run : SlotRun ω
  unit : Tpdu

namespace SlotRun

variable (link : Link ω) (id : Nat)

/-- The units of one response. -/
def meetingsIn : List Tpdu → SlotRun ω → List (Meeting ω)
  | [], _ => []
  | t :: ts, r => ⟨id, r, t⟩ :: meetingsIn ts (r.handle link id t).1

/-- The units of at most `fuel` responses. -/
def meetingsWithin : (fuel : Nat) → SlotRun ω → List (Meeting ω)
  | 0, _ => []
  | fuel + 1, r =>
    match link.read r.slot.device r.slot.number r.slot.config.room r.world with
    | (.ok (some response), world) =>
      let r := { r with world := world }
      if r.slot.config.room < response.length then []
      else
        match Tpdu.readResponse response with
        | .error _ => []
        | .ok units =>
          meetingsIn link id units r ++ meetingsWithin fuel (r.handleAll link id units none).1
    | _ => []

/-- The units of all responses that are ready. -/
def meetings (r : SlotRun ω) : List (Meeting ω) :=
  meetingsWithin link id (link.burst r.slot.device r.slot.number r.world) r

/-- The units that a first poll of a ready module takes up. -/
def startMeetings (r : SlotRun ω) : List (Meeting ω) :=
  match link.linkType r.slot.device r.slot.number r.world with
  | (.ok .packets, world) =>
    let r := { r with world := world, slot := { r.slot with state := .ready } }
    match r.slot.begin? with
    | none => []
    | some (_, slot) => { r with slot := slot }.meetings link id
  | _ => []

/-- The units that a poll of a slot takes up. -/
def pollMeetings (r : SlotRun ω) : List (Meeting ω) :=
  match link.status r.slot.device r.slot.number r.world with
  | (.error _, _) => []
  | (.ok status, world) =>
    let r := { r with world := world }
    match r.slot.state, status with
    | .empty, _ => []
    | _, .missing => []
    | .starting, .ready => r.startMeetings link id
    | .ready, _ => r.meetings link id
    | _, _ => []

end SlotRun

namespace TransportLayer

variable (link : Link ω) (now : Nat)

/-- The units that slots take up that are polled in turn. -/
def meetingsFrom : (id : Nat) → List (Option Slot) → Sweep ω → List (Meeting ω)
  | _, [], _ => []
  | id, none :: slots, s => meetingsFrom (id + 1) slots s
  | id, some slot :: slots, s =>
    SlotRun.pollMeetings link id ⟨slot, s.events, s.world⟩ ++
      meetingsFrom (id + 1) slots (pollSlot link now id slot s).2

end TransportLayer

/-! ## Runs -/

/-- What the host asks of a transport layer. -/
inductive Request where
  | register (device : Nat) (number : UInt8) (config : SlotConfig)
  | destroySlot (slot : Nat)
  | newConnection (slot : Nat)
  | deleteConnection (slot : Nat) (tcid : UInt8)
  | sendData (slot : Nat) (tcid : UInt8) (data : Bytes)
  | poll (now : Nat)

/-- A transport layer among its devices, and what it has told and met so far. -/
structure TransportRun (ω : Type) where
  layer : TransportLayer
  world : ω
  /-- What the polls have told. -/
  told : List TransportEvent
  /-- The units that were taken up. -/
  met : List (Meeting ω)

namespace TransportRun

def start (maxSlots maxConnections : Nat) (world : ω) : TransportRun ω :=
  ⟨.new maxSlots maxConnections, world, [], []⟩

/-- What becomes of the layer. A request that fails leaves it as it is. -/
def settle {α : Type} (outcome : Except CiError α) (layer : α → TransportLayer)
    (r : TransportRun ω) : TransportRun ω :=
  match outcome with
  | .ok a => { r with layer := layer a }
  | .error _ => r

def perform (link : Link ω) (r : TransportRun ω) : Request → TransportRun ω
  | .register device number config => r.settle (r.layer.register device number config) Prod.snd
  | .destroySlot slot => r.settle (r.layer.destroySlot slot) id
  | .newConnection slot => r.settle (r.layer.newConnection slot) Prod.snd
  | .deleteConnection slot tcid => r.settle (r.layer.deleteConnection slot tcid) id
  | .sendData slot tcid data => r.settle (r.layer.sendData slot tcid data) id
  | .poll now =>
    { layer := (r.layer.poll link now r.world).1
      world := (r.layer.poll link now r.world).2.2
      told := r.told ++ (r.layer.poll link now r.world).2.1
      met := r.met ++ TransportLayer.meetingsFrom link now 0 r.layer.slots
        ⟨r.layer.events, r.world, r.layer.lastError⟩ }

/-- One request after the other. -/
def after (link : Link ω) (requests : List Request) (r : TransportRun ω) : TransportRun ω :=
  requests.foldl (perform link) r

/-- A device with one module that is always ready. It gives out one response for each poll, and
fails to write the units that it refuses. -/
def refusing (refuses : Bytes → Bool) : Link (List (Option Bytes)) where
  reset _ _ w := (.ok (), w)
  status _ _ w := (.ok .ready, w)
  linkType _ _ w := (.ok .packets, w)
  read _ _ _ w := (.ok w.head?.join, w.tail)
  write _ _ _ unit w := if refuses unit then (.error "refused", w) else (.ok (), w)
  burst _ _ _ := 1

end TransportRun

end DvbHost.Ci
