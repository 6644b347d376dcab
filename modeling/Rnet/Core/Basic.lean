import Rnet.Lib.BigEndian

/-! # Errors, handles and transport events

The vocabulary every crate of the library shares. An operation that can fail returns
`Result α`; an error carries its stable category and its diagnostic text. Handles name endpoints
and sessions; `0` names nothing. An `Event` is what the transport publishes to its consumer. -/

namespace Rnet.Core

open Rnet.Lib.BigEndian

/-- Status codes of the public interface. -/
inductive ErrorCode
  | ok | invalidArgument | invalidHandle | invalidState | wouldBlock | timeout | notSupported
  | ioError | protocolError | messageTooLarge | internalPanic | handshakeRequired
  | handshakeFailed | authRejected | peerKeyMismatch | replayDetected | cryptoError
  | rateLimited | cancelled
  deriving DecidableEq

/-- An error with its text. -/
structure RnetError where
  code : ErrorCode
  message : String
  deriving DecidableEq

/-- What a fallible function returns. -/
abbrev Result (α : Type) := Except RnetError α

/-- Owner-local identifier of an endpoint or a session. -/
abbrev Handle := ℕ

/-- A point on the local monotonic clock, in milliseconds. -/
abbrev Instant := ℕ

def u32Max : ℕ := 2 ^ 32 - 1

def u64Max : ℕ := 2 ^ 64 - 1

/-- Protocols an endpoint can be opened on. -/
inductive Transport
  | tcp | udp | kcp
  deriving DecidableEq

/-- Kinds of events the application polls. -/
inductive EventType
  | runtimeStarted | endpointOpened | endpointError | sessionOpened | sessionClosed | message
  | writable | runtimeStopped | authRequest | joinFailed | securityChanged | gameControl
  deriving DecidableEq

/-- A transport event, without its queueing timestamp. -/
structure Event where
  eventType : EventType
  endpoint : Handle
  session : Handle
  correlationId : UInt64 := 0
  status : ErrorCode := .ok
  data : Bytes := []
  integrityVerified : Bool := false
  deriving DecidableEq

end Rnet.Core
