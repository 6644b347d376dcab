import Rnet.Transport.Sending
import Rnet.Transport.Session

/-! # The network runtime as the game runtime uses it

Endpoints, the shared session table and event queue, and the public calls the game layer makes. The
input/output workers are not under the control of the game layer: what they may do to the shared state
between two of its steps (accept, join, establish, deliver, drop, fail an endpoint, lose a queued
notification) is one definition each.

`joins`, `controls` and `data` record the join payload of every connection and every game control and
application payload that was admitted for sending; no function reads them. -/

namespace Rnet.Game.Network

open Rnet.Core Lib.BigEndian Lib.FiniteMap
open Protocol.Records (SecurityMode)
open Transport.Codec (encryptedUdpWireOverhead)
open Transport.Config Transport.State Transport.Sending
open Transport.Session (SecurityOperation securityChangedEvent gameControlEvent sessionEvent)

structure NativeEndpoint where
  server : Bool
  transport : Transport
  joined : Bool
  deriving DecidableEq

/-- The transport runtime as the game layer uses it. -/
structure NetworkRuntime where
  shared : Shared
  endpoints : Table Handle NativeEndpoint
  nextEndpoint : Handle
  joins : Table Handle Bytes
  controls : List (Handle × Bytes)
  data : List (Handle × Bytes)

/-- The worker's queue of a session when a message is offered. -/
inductive Queue
  | room | full | closed
  deriving DecidableEq

/-- What the send path of a session finds: reserved bytes and the worker's queue. -/
structure Channel where
  usage : Usage
  queue : Queue
  deriving DecidableEq

def queueError (target : SessionTarget) (closed : Bool) : RnetError :=
  match target with
  | .tcp =>
    if closed then ⟨.invalidState, "session is closed"⟩
    else ⟨.wouldBlock, "session write queue is full"⟩
  | .udp _ _ =>
    if closed then ⟨.invalidState, "UDP endpoint is closed"⟩
    else ⟨.wouldBlock, "UDP send queue is full"⟩
  | .kcp _ =>
    if closed then ⟨.invalidState, "KCP endpoint is closed"⟩
    else ⟨.wouldBlock, "KCP send queue is full"⟩

def offer (queue : Queue) (prepared : Result (SessionTarget × Bytes)) : Result Bytes :=
  match prepared with
  | .error e => .error e
  | .ok (target, bytes) =>
    match queue with
    | .room => .ok bytes
    | .full => .error (queueError target false)
    | .closed => .error (queueError target true)

def invalidSession : RnetError := ⟨.invalidHandle, "invalid session"⟩

namespace NetworkRuntime

variable (n : NetworkRuntime) (endpoint : Handle)

def initial (config : RuntimeConfig) : NetworkRuntime where
  shared := .initial config
  endpoints := ∅
  nextEndpoint := 1
  joins := ∅
  controls := []
  data := []

/-! ### Calls of the game layer -/

/-- The session takes a payload of that length. -/
def validatePayloadLen (session : Handle) (payloadLen : ℕ) : Result Unit :=
  if !n.shared.running then .error notAccepting
  else if n.shared.config.maxBodyLen < payloadLen then
    .error ⟨.messageTooLarge, "payload exceeds configured body limit"⟩
  else
    match n.shared.sessions.lookup session with
    | none => .error invalidSession
    | some route =>
      if !route.established then
        .error ⟨.handshakeRequired, "session handshake has not completed"⟩
      else if exceedsTarget route.target (payloadLen + Protocol.Framing.headerLen) then
        .error ⟨.messageTooLarge, "encoded frame exceeds UDP datagram limit"⟩
      else .ok ()

def sendGameControl (channel : Channel) (session : Handle) (payload : Bytes) :
    NetworkRuntime × Result Unit :=
  match offer channel.queue
      (Transport.Sending.sendGameControl n.shared channel.usage session payload) with
  | .error e => (n, .error e)
  | .ok _ => ({ n with controls := n.controls ++ [(session, payload)] }, .ok ())

def sendWithOptions (channel : Channel) (session : Handle) (payload : Bytes)
    (correlationId : UInt64) : NetworkRuntime × Result Unit :=
  match offer channel.queue
      (Transport.Sending.sendWithOptions n.shared channel.usage session payload correlationId) with
  | .error e => (n, .error e)
  | .ok _ => ({ n with data := n.data ++ [(session, payload)] }, .ok ())

def closeSession (session : Handle) (reason : ErrorCode) : NetworkRuntime × Result Unit :=
  if n.shared.sessionActive session then
    ({ n with shared := n.shared.close session reason false }, .ok ())
  else (n, .error invalidSession)

/-- `auth_decide`; `expired` is whether the worker stopped waiting for the decision. -/
def authDecide (session : Handle) (accept expired : Bool) : NetworkRuntime × Result Unit :=
  match n.shared.sessions.lookup session with
  | none => (n, .error invalidSession)
  | some route =>
    if !route.authDecision then
      (n, .error ⟨.invalidState, "session is not awaiting authentication"⟩)
    else
      let shared := { n.shared with
        sessions := n.shared.sessions.insert session { route with authDecision := false } }
      if expired then
        ({ n with shared := shared }, .error ⟨.invalidState, "authentication request expired"⟩)
      else
        ({ n with shared := { shared with
          authDecisions := shared.authDecisions.insert session accept } }, .ok ())

def retire (s : Shared) (session : Handle) : Shared :=
  match s.sessions.lookup session with
  | none => s
  | some route =>
    { s with
      sessions := s.sessions.erase session
      latestKeys := s.latestKeys.filter fun k => k.1 ≠ session
      pendingHandshakes := if route.established then s.pendingHandshakes else s.pendingHandshakes - 1
    }.publish (sessionEvent .sessionClosed route.endpoint session)

def endpointSessions (s : Shared) (endpoint : Handle) : List Handle :=
  (filter s.sessions fun _ route => route.endpoint = endpoint).entries.map Sigma.fst

/-- All sessions of an endpoint end. -/
def closeEndpointSessions (s : Shared) (endpoint : Handle) : Shared :=
  (endpointSessions s endpoint).foldl retire s

def closeEndpoint : NetworkRuntime × Result Unit :=
  match n.endpoints.lookup endpoint with
  | none => (n, .error ⟨.invalidHandle, "invalid endpoint"⟩)
  | some _ =>
    ({ n with
      endpoints := n.endpoints.erase endpoint
      shared := closeEndpointSessions n.shared endpoint }, .ok ())

/-- `stop`: every endpoint is closed, then the end of the runtime is announced once. -/
def stop : NetworkRuntime :=
  let closed := (n.endpoints.entries.map Sigma.fst).foldl (fun n e => (n.closeEndpoint e).1)
    { n with shared := { n.shared with running := false } }
  if n.shared.running then
    { closed with shared := closed.shared.publish (sessionEvent .runtimeStopped 0 0) }
  else closed

/-- `listen` and `connect`; `opened` is the answer of the checks on the configuration and the
budgets and of the socket. -/
def openEndpoint (server : Bool) (transport : Transport) (join : Option Bytes)
    (opened : Result Unit) : NetworkRuntime × Result Handle :=
  if !n.shared.running then (n, .error ⟨.invalidState, "runtime is not accepting endpoints"⟩)
  else
    match opened with
    | .error e => (n, .error e)
    | .ok () =>
      ({ n with
        endpoints := n.endpoints.insert n.nextEndpoint ⟨server, transport, false⟩
        joins := join.elim n.joins fun payload => n.joins.insert n.nextEndpoint payload
        nextEndpoint := n.nextEndpoint + 1 }, .ok n.nextEndpoint)

/-! ### Input and output workers -/

def targetOf (config : RuntimeConfig) (transport : Transport) (peer : SocketAddr) : SessionTarget :=
  match transport with
  | .tcp => .tcp
  | .udp => .udp peer (config.maxDatagramSize - encryptedUdpWireOverhead)
  | .kcp => .kcp peer

/-- A listener finishes a handshake: the session is registered and its authorization requested. -/
def accept (peer : SocketAddr) (peerKey join : Bytes) (room : Bool) : NetworkRuntime :=
  match n.endpoints.lookup endpoint with
  | none => n
  | some native =>
    if !native.server then n
    else
      match n.shared.insertSessionRoute
        { endpoint := endpoint, target := targetOf n.shared.config native.transport peer
          established := false, authDecision := true, securityCommands := true
          allowsGameControls := true } with
      | (_, .error _) => n
      | (shared, .ok session) =>
        { n with shared := (shared.tryPushSessionEvent room
          { eventType := .authRequest, endpoint := endpoint, session := session
            data := peerKey ++ join }).1 }

def join (peer : SocketAddr) : NetworkRuntime :=
  match n.endpoints.lookup endpoint with
  | none => n
  | some native =>
    if native.server || native.joined then n
    else
      match n.shared.insertSessionRoute
        { endpoint := endpoint, target := targetOf n.shared.config native.transport peer
          established := false, authDecision := false, securityCommands := false
          allowsGameControls := true } with
      | (_, .error _) => n
      | (shared, .ok _) =>
        { n with
          shared := shared
          endpoints := n.endpoints.insert endpoint { native with joined := true } }

/-- A session finishes its join; a server session needs the application's consent. -/
def establish (session : Handle) (room : Bool) : NetworkRuntime :=
  match n.shared.sessions.lookup session with
  | none => n
  | some route =>
    if route.established ||
        (route.securityCommands && n.shared.authDecisions.lookup session != some true) then n
    else
      { n with shared := ((n.shared.markSessionEstablished session).1.tryPushSessionEvent room
        (sessionEvent .sessionOpened route.endpoint session)).1 }

/-- What a worker publishes about an established session. -/
inductive Delivery
  | message (correlationId : UInt64) (data : Bytes) (integrityVerified : Bool)
  | gameControl (data : Bytes)
  | writable
  | securityChanged (operation : SecurityOperation) (mode : SecurityMode) (epoch : ℕ)
  deriving DecidableEq

def Delivery.event (endpoint session : Handle) : Delivery → Event
  | .message correlationId data integrityVerified =>
    { eventType := .message, endpoint := endpoint, session := session
      correlationId := correlationId, data := data, integrityVerified := integrityVerified }
  | .gameControl data => gameControlEvent endpoint session data
  | .writable => sessionEvent .writable endpoint session
  | .securityChanged operation mode epoch =>
    securityChangedEvent endpoint session operation mode epoch

def deliver (session : Handle) (delivery : Delivery) (room : Bool) : NetworkRuntime :=
  match n.shared.sessions.lookup session with
  | none => n
  | some route =>
    if !route.established then n
    else
      { n with shared := (n.shared.tryPushSessionEvent room (delivery.event route.endpoint session)).1 }

def drop (session : Handle) (reason : ErrorCode) (joining : Bool) : NetworkRuntime :=
  { n with shared := n.shared.close session reason joining }

/-- `fail_endpoint`: the failure is announced, then its sessions are closed. -/
def failEndpoint (initialClient : Option Handle) (reason : ErrorCode) : NetworkRuntime :=
  match n.endpoints.lookup endpoint with
  | none => n
  | some _ =>
    let announced := n.shared.publish
      { sessionEvent .endpointError endpoint 0 with status := reason }
    { n with
      endpoints := n.endpoints.erase endpoint
      shared := (endpointSessions n.shared endpoint).foldl
        (fun s session => s.close session reason (initialClient == some session)) announced }

/-- Notifications that a full queue evicts or refuses. -/
def expendable : EventType → Bool
  | .message | .writable | .gameControl | .sessionClosed | .joinFailed | .endpointError => true
  | _ => false

/-- The bounded queue loses a notification. -/
def lose (index : ℕ) : NetworkRuntime :=
  match n.shared.events[index]? with
  | none => n
  | some event =>
    if expendable event.eventType then
      { n with shared := { n.shared with events := n.shared.events.eraseIdx index } }
    else n

/-- The prefix of the queue that fits the limits of `poll_with_byte_limit`. -/
def fitting (bytes : ℕ) : ℕ → List Event → List Event
  | 0, _ => []
  | _, [] => []
  | capacity + 1, event :: rest =>
    if event.data.length ≤ bytes then event :: fitting (bytes - event.data.length) capacity rest
    else []

/-- Takes events within both limits. -/
def pollEventsWithByteLimit (capacity bytes : ℕ) : NetworkRuntime × List Event :=
  let events := fitting bytes capacity n.shared.events
  ({ n with shared := { n.shared with events := n.shared.events.drop events.length } }, events)

end NetworkRuntime

end Rnet.Game.Network
