import Rnet.Game.Controls
import Rnet.Transport.Session

/-! # Game events

What `poll` returns to the application. The measurements of `QualityChanged` and the queueing times
are left out. -/

namespace Rnet.Game.Event

open Rnet.Core Lib.BigEndian
open Transport.Session (SecurityOperation)

/-- An application message with its metadata. -/
structure GameMessage where
  endpoint : Handle
  session : Handle
  sequence : Option UInt32
  tick : Option UInt32
  correlationId : UInt64
  payload : Bytes
  deriving DecidableEq

/-- Events of the game layer. -/
inductive GameEvent
  | runtimeStarted
  | runtimeStopped
  | endpointOpened (endpoint : Handle)
  | endpointError (endpoint : Handle) (status : ErrorCode)
  | authRequest (endpoint session : Handle) (clientPublicKey joinTicket : Bytes)
      (buildId capabilities : UInt64)
  | resumeRequest (endpoint session oldSession : Handle)
      (identity clientPublicKey joinTicket : Bytes) (buildId capabilities : UInt64)
  | protocolRejected (endpoint session : Handle) (reason : ErrorCode)
  | sessionReady (endpoint session : Handle)
  | sessionResumed (endpoint oldSession newSession : Handle)
  | resumeTicket (endpoint session : Handle) (ticket : Bytes)
  | sessionClosed (endpoint session : Handle) (reason : ErrorCode)
  | message (message : GameMessage)
  | writable (endpoint session : Handle)
  | joinFailed (endpoint session : Handle) (reason : ErrorCode)
  | securityChanged (endpoint session : Handle) (encrypted : Bool) (epoch : UInt64)
      (operation : SecurityOperation)
  | qualityChanged (endpoint session : Handle)
  | protocolViolation (endpoint session : Handle)
  deriving DecidableEq

namespace GameEvent

/-- Bytes an event counts for. -/
def payloadBytes : GameEvent → ℕ
  | message m => m.payload.length
  | authRequest _ _ _ joinTicket _ _ => joinTicket.length
  | resumeRequest _ _ _ identity _ joinTicket _ _ => identity.length + joinTicket.length
  | resumeTicket _ _ ticket => ticket.length
  | _ => 0

/-- The event is dropped with the session. -/
def belongsTo (event : GameEvent) (session : Handle) : Bool :=
  match event with
  | message m => m.session == session
  | sessionReady _ s | writable _ s | securityChanged _ s _ _ _ | qualityChanged _ s
  | resumeTicket _ s _ => s == session
  | sessionResumed _ _ new => new == session
  | _ => false

def readies : GameEvent → Option Handle
  | sessionReady _ session => some session
  | sessionResumed _ _ new => some new
  | _ => none

def messageOf : GameEvent → Option Handle
  | message m => some m.session
  | _ => none

def retires : GameEvent → Option Handle
  | sessionResumed _ old _ => some old
  | _ => none

end GameEvent

end Rnet.Game.Event
