import DvbHost.Ci.Resource.Basic
import DvbHost.KeyedList

/-!
# Man-machine interface

The host has the high-level mode only: menus, lists and enquiries. A menu or list may come in
several units; they are joined for each session until the last one comes, and an object of the
other kind in between spoils both.
-/

namespace DvbHost.Ci

set_option autoImplicit false

inductive ChainedObject where
  | menu
  | list
  deriving DecidableEq

namespace ChainedObject

def event : ChainedObject → Menu → MmiEvent
  | menu => .menu
  | list => .list

end ChainedObject

structure Mmi where
  /-- Objects whose last unit has not come yet. -/
  chains : KeyedList SessionId (ChainedObject × Bytes)

namespace Mmi

def empty : Mmi := ⟨[]⟩

/-- What a unit of this resource is. -/
inductive Message where
  | close
  | displayControl
  | enquiry
  | object (kind : ChainedObject) (last : Bool)
  /-- Of no use to the high-level mode. -/
  | ignored
  deriving DecidableEq

namespace Message

def ofTag? : (tag : Nat) → Option Message
  | 0x9F8800 => some close
  | 0x9F8801 => some displayControl
  | 0x9F8803 => some ignored
  | 0x9F8804 => some ignored
  | 0x9F8805 => some ignored
  | 0x9F8807 => some enquiry
  | 0x9F8809 => some (object .menu true)
  | 0x9F880A => some (object .menu false)
  | 0x9F880C => some (object .list true)
  | 0x9F880D => some (object .list false)
  | _ => none

end Message

/-- The answer to a command about the display: the high-level mode is taken up, other modes and
commands are unknown, and no character tables but the default are listed. -/
def displayReply : Bytes → Except CiError Bytes
  | [] => .error .truncatedData
  | [0x01] => .error .truncatedData
  | 0x01 :: 0x01 :: _ => .ok [0x01, 0x01]
  | 0x01 :: _ => .ok [0xF1]
  | 0x02 :: _ => .ok [0x02]
  | 0x03 :: _ => .ok [0x03]
  | _ => .ok [0xF0]

def displayControl (m : Mmi) (session : SessionId) (data : Bytes) : Reaction Mmi :=
  match displayReply data with
  | .ok reply => .send m session 0x9F8802 reply
  | .error e => .fail m e

def close (m : Mmi) (session : SessionId) : Mmi := ⟨m.chains.erase session⟩

/-- Seconds until the dialogue ends, if the module gives it time. -/
def closeDelay : Bytes → Option UInt8
  | 0x01 :: delay :: _ => some delay
  | _ => none

def enquiry (m : Mmi) (session : SessionId) : Bytes → Reaction Mmi
  | flags :: answerLength :: text =>
    .emit m (.mmi session (.enquiry (Octet.flag 0 flags) answerLength (⟨text⟩ : DvbText).text))
  | _ => .fail m .truncatedData

/-- What has come of an object once `data` is joined to its chain. -/
def joined (m : Mmi) (session : SessionId) (kind : ChainedObject) (data : Bytes) :
    Except CiError Bytes :=
  match m.chains.get? session with
  | none => .ok data
  | some (begun, chain) =>
    if begun = kind then .ok (chain ++ data) else .error (.protocolViolation .interleavedObject)

def object (m : Mmi) (session : SessionId) (kind : ChainedObject) (last : Bool) (data : Bytes) :
    Reaction Mmi :=
  match m.joined session kind data with
  | .error e => .fail (m.close session) e
  | .ok whole =>
    if last then
      match Menu.read whole with
      | .ok menu => .emit (m.close session) (.mmi session (kind.event menu))
      | .error e => .fail (m.close session) e
    else .done ⟨m.chains.put session (kind, whole)⟩

def receive (m : Mmi) (session : SessionId) (apdu : Apdu) : Reaction Mmi :=
  match Message.ofTag? apdu.tag with
  | none => .fail m (.protocolViolation .unexpectedApdu)
  | some .ignored => .done m
  | some .close => .emit (m.close session) (.mmi session (.close (closeDelay apdu.data)))
  | some .displayControl => m.displayControl session apdu.data
  | some .enquiry => m.enquiry session apdu.data
  | some (.object kind last) => m.object session kind last apdu.data

def closed (m : Mmi) (session : SessionId) : Mmi := m.close session

end Mmi

end DvbHost.Ci
