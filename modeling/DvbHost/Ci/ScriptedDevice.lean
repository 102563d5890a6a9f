import DvbHost.Ci.Link
import DvbHost.Ci.Tpdu
import DvbHost.KeyedList
import DvbHost.Queue

/-!
# Devices that follow a script

A link without hardware, to try out the layers above it. Each device answers with responses that
were queued for it beforehand. An automatic one also plays the part of a well-behaved module: it
agrees to connections and their ends, says whether it has payloads left and hands them out when it
is asked for them. A device may be told to fail one kind of call.
-/

namespace DvbHost.Ci

set_option autoImplicit false

/-- A payload that a module has to hand out, and whether more of its message follows. -/
structure Payload where
  more : Bool
  data : Bytes

structure ScriptedDevice where
  cam : ModuleState
  link : LinkType
  automatic : Bool
  /-- The name of the call that fails. -/
  failing : String
  responses : Queue Bytes
  /-- For each connection. -/
  payloads : KeyedList UInt8 (Queue Payload)

namespace ScriptedDevice

/-- A module that is ready, answers nothing by itself and never fails. -/
def standard : ScriptedDevice := ⟨.ready, .packets, false, "", .empty, []⟩

def respond (response : Bytes) (d : ScriptedDevice) : ScriptedDevice :=
  { d with responses := d.responses.push response }

def payloadsOf (d : ScriptedDevice) (tcid : UInt8) : Queue Payload :=
  (d.payloads.get? tcid).getD .empty

def offer (tcid : UInt8) (p : Payload) (d : ScriptedDevice) : ScriptedDevice :=
  { d with payloads := d.payloads.put tcid ((d.payloadsOf tcid).push p) }

/-- A unit of the module; one too large for a length field is none at all. -/
def unit (tag : TpduTag) (tcid : UInt8) (data : Bytes) : Bytes :=
  match Tpdu.encode tag tcid data with
  | .ok octets => octets
  | .error _ => []

/-- The unit that says whether payloads are left. -/
def statusUnit (d : ScriptedDevice) (tcid : UInt8) : Bytes :=
  unit .sb tcid [if (d.payloadsOf tcid).pop?.isSome then 0x80 else 0x00]

/-- The next payload as a unit, if there is one, and the device without it. -/
def handOut (d : ScriptedDevice) (tcid : UInt8) : Bytes × ScriptedDevice :=
  match (d.payloadsOf tcid).pop? with
  | none => ([], d)
  | some (p, left) =>
    (unit (if p.more then .dataMore else .dataLast) tcid p.data,
      { d with payloads := d.payloads.put tcid left })

/-- What an automatic module does about a unit from the host. -/
def react (tcid tag : UInt8) (d : ScriptedDevice) : ScriptedDevice :=
  match TpduTag.ofOctet tag with
  | .ok .createTc => d.respond (unit .createTcReply tcid [] ++ d.statusUnit tcid)
  | .ok .deleteTc => d.respond (unit .deleteTcReply tcid [])
  | .ok .rcv =>
    let (handed, d) := d.handOut tcid
    d.respond (handed ++ d.statusUnit tcid)
  | .ok .dataLast | .ok .dataMore => d.respond (d.statusUnit tcid)
  | _ => d

end ScriptedDevice

/-- A call that a device can see. -/
inductive DeviceCall where
  | reset (device : Nat) (slot : UInt8)
  | write (device : Nat) (slot tcid : UInt8) (unit : Bytes)
  deriving DecidableEq

/-- Scripted devices by their numbers, and a record of what was seen. -/
structure TestBed (ε : Type) where
  devices : List ScriptedDevice
  record : Queue ε

namespace TestBed

variable {ε α : Type}

def empty : TestBed ε := ⟨[], .empty⟩

def device (b : TestBed ε) (i : Nat) : ScriptedDevice := b.devices.getD i .standard

def update (i : Nat) (f : ScriptedDevice → ScriptedDevice) (b : TestBed ε) : TestBed ε :=
  { b with devices := b.devices.modify i f }

def add (d : ScriptedDevice) (b : TestBed ε) : TestBed ε := { b with devices := b.devices ++ [d] }

def see (e : ε) (b : TestBed ε) : TestBed ε := { b with record := b.record.push e }

/-- A call that does nothing but fail if the device is told to fail it. -/
def call (name : String) (i : Nat) (f : ScriptedDevice → α × TestBed ε) (b : TestBed ε) :
    Except String α × TestBed ε :=
  let d := b.device i
  if d.failing = name then (.error ("device failed: " ++ name), b)
  else
    match f d with
    | (a, b) => (.ok a, b)

/-- The link to scripted devices; `note` says how a call is recorded. -/
def link (note : DeviceCall → ε) : Link (TestBed ε) where
  reset i slot b := b.call "reset" i fun _ => ((), b.see (note (.reset i slot)))
  status i _ b := b.call "status" i fun d => (d.cam, b)
  linkType i _ b := b.call "link" i fun d => (d.link, b)
  read i _ _ b := b.call "read" i fun d =>
    match d.responses.pop? with
    | none => (none, b)
    | some (response, left) => (some response, b.update i fun d => { d with responses := left })
  write i slot tcid unit b := b.call "write" i fun _ =>
    ((), (b.see (note (.write i slot tcid unit))).update i fun d =>
      if d.automatic then d.react tcid (unit.headD 0) else d)
  burst i _ b := (b.device i).responses.toList.length + 1

end TestBed

end DvbHost.Ci
