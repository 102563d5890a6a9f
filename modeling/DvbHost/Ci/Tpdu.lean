import DvbHost.Ci.Length

/-!
# Transport units

A TPDU is a tag, a length field and a body that begins with the number of the transport
connection. One response of a module holds whole units only; a malformed one spoils all of it.
-/

namespace DvbHost.Ci

set_option autoImplicit false

inductive TpduTag where
  | sb
  | rcv
  | createTc
  | createTcReply
  | deleteTc
  | deleteTcReply
  | requestTc
  | newTc
  | tcError
  | dataLast
  | dataMore
  deriving DecidableEq

namespace TpduTag

def all : List TpduTag :=
  [sb, rcv, createTc, createTcReply, deleteTc, deleteTcReply, requestTc, newTc, tcError, dataLast,
    dataMore]

def octet : TpduTag → UInt8
  | sb => 0x80
  | rcv => 0x81
  | createTc => 0x82
  | createTcReply => 0x83
  | deleteTc => 0x84
  | deleteTcReply => 0x85
  | requestTc => 0x86
  | newTc => 0x87
  | tcError => 0x88
  | dataLast => 0xA0
  | dataMore => 0xA1

/-- The tag that an octet stands for. -/
def ofOctet (b : UInt8) : Except CiError TpduTag :=
  match all.find? fun t => t.octet == b with
  | some t => .ok t
  | none => .error (.protocolViolation .tpduTag)

end TpduTag

structure Tpdu where
  tag : TpduTag
  /-- The transport connection. -/
  tcid : UInt8
  data : Bytes
  deriving DecidableEq

namespace Tpdu

/-- The unit at the front of a byte string, and what follows it. -/
def read : Bytes → Except CiError (Tpdu × Bytes)
  | [] => .error .truncatedData
  | b :: tail =>
    match TpduTag.ofOctet b with
    | .error e => .error e
    | .ok tag =>
      match Length.split tail with
      | .error e => .error e
      | .ok ([], _) => .error .lengthMismatch
      | .ok (tcid :: data, tail) => .ok (⟨tag, tcid, data⟩, tail)

/-- At most `fuel` units. -/
def readResponseWithin : (fuel : Nat) → Bytes → Except CiError (List Tpdu)
  | 0, _ => .ok []
  | _ + 1, [] => .ok []
  | fuel + 1, data =>
    match read data with
    | .error e => .error e
    | .ok (tpdu, tail) => (readResponseWithin fuel tail).map (tpdu :: ·)

/-- The units of one response. A unit has at least three octets, so the number of octets bounds
the number of units. -/
def readResponse (data : Bytes) : Except CiError (List Tpdu) :=
  readResponseWithin data.length data

/-- Whether a status unit says that the module has data; other units say nothing of it. -/
def dataAvailable (t : Tpdu) : Option Bool :=
  match t.tag, t.data with
  | .sb, value :: _ => some (Octet.flag 7 value)
  | _, _ => none

def encode (tag : TpduTag) (tcid : UInt8) (data : Bytes) : Except CiError Bytes := do
  return tag.octet :: (← Length.encode (1 + data.length)) ++ tcid :: data

end Tpdu

end DvbHost.Ci
