/-!
# Errors of the common interface

Everything that can go wrong while host and module talk to each other, from the framing of single
units up to the resources of the host.
-/

namespace DvbHost.Ci

set_option autoImplicit false

/-- What a module did that its protocol forbids. -/
inductive Violation where
  /-- A length whose own length is no number from 1 to 4. -/
  | lengthField
  | apduTag
  | tpduTag
  | spduTag
  | unexpectedCreateReply
  | unexpectedDeleteReply
  /-- A chain of fragments longer than the slot allows. -/
  | dataTooLong
  /-- A transport unit that only a host sends. -/
  | hostTpdu
  | unexpectedCreateSessionResponse
  | unexpectedCloseSessionResponse
  /-- A session unit that only a host sends. -/
  | hostSpdu
  | unexpectedApdu
  /-- Something else than a text inside a menu. -/
  | textObject
  /-- A chained object begun before another one ended. -/
  | interleavedObject
  deriving DecidableEq

namespace Violation

def text : Violation → String
  | lengthField => "asn.1 length"
  | apduTag => "apdu tag"
  | tpduTag => "tpdu tag"
  | spduTag => "spdu tag"
  | unexpectedCreateReply => "unexpected T_C_T_C_REPLY"
  | unexpectedDeleteReply => "unexpected T_D_T_C_REPLY"
  | dataTooLong => "received data too long"
  | hostTpdu => "host tpdu from module"
  | unexpectedCreateSessionResponse => "unexpected create_session_response"
  | unexpectedCloseSessionResponse => "unexpected close_session_response"
  | hostSpdu => "host spdu from module"
  | unexpectedApdu => "unexpected apdu"
  | textObject => "text object"
  | interleavedObject => "interleaved mmi object"

end Violation

inductive CiError where
  | truncatedData
  | lengthMismatch
  | protocolViolation (v : Violation)
  | resourceUnavailable
  /-- The module did not answer in time. -/
  | slotTimeout
  /-- The module reported an error on a connection. -/
  | slotError
  | tooManyResources
  | tooManySlots
  | tooManyConnections
  | tooManySessions
  | badSlot
  | badConnection
  | badSession
  | unsupported
  /-- The device failed, in its own words. -/
  | device (text : String)
  deriving DecidableEq

namespace CiError

def message : CiError → String
  | truncatedData => "truncated data"
  | lengthMismatch => "length mismatch"
  | protocolViolation v => "protocol violation: " ++ v.text
  | resourceUnavailable => "resource unavailable"
  | slotTimeout => "slot timed out"
  | slotError => "slot reported an error"
  | tooManyResources => "too many resources"
  | tooManySlots => "too many slots"
  | tooManyConnections => "too many connections"
  | tooManySessions => "too many sessions"
  | badSlot => "bad slot"
  | badConnection => "bad connection"
  | badSession => "bad session"
  | unsupported => "unsupported"
  | device text => text

end CiError

end DvbHost.Ci
