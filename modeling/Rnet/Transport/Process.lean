import Rnet.Transport.Session

/-! # Handshake and session state machine of a datagram peer

`process` consumes one decoded record of one address. The peer state is taken out first and put back
at the end, so an arm that fails leaves the address without a peer; only the established arm puts its
peer back before it reports the error. Each arm is a function of its own and returns the state that
`process` puts back. -/

namespace Rnet.Transport.Process

open Rnet.Core Lib.BigEndian Protocol.Records Security.Cipher Security.Controller Security.Handshake
open Config State Slots Codec Wire Session

variable {N : Noise}

variable (setup : Setup N) (call : Call N) (l : Local N)

abbrev Arm (N : Noise) := Local N × Result (Option (Peer N))

def setPeer (peer : Option (Peer N)) : Local N :=
  { l with slot := { l.slot with peer := peer } }

/-! ### Server arms -/

/-- A hello without a valid cookie is challenged; KCP remembers that it did. -/
def challenge (previous : Option (Peer N)) : Arm N :=
  match sendResponse setup call l ⟨.cookieChallenge, 0, call.cookieIssue.bytes⟩ 128 with
  | (l, .error e) => (l, .error e)
  | (l, .ok ()) =>
    if setup.kind = .kcp then
      (l, .ok (some (previous.getD (.cookie (call.now + l.shared.config.handshakeTimeout)))))
    else (l, .ok previous)

/-- A hello with a valid cookie starts a handshake, in place of one that has no session yet. -/
def greet (localKey : N.Identity) (initialMode : SecurityMode) : Arm N :=
  if l.shared.config.maxSessionsPerEndpoint ≤ call.others.peers then
    (l, .error ⟨.rateLimited, "adaptive datagram peer limit reached"⟩)
  else
    match sendReliable setup call l
      ⟨.serverHello, 0, initialMode.toByte :: N.publicKey localKey⟩ 128 with
    | (l, .error e) => (l, .error e)
    | (l, .ok ()) => (l, .ok (some (.serverFirst (.new localKey call.seed) call.now)))

def clientHello (previous : Option (Peer N)) (localKey : N.Identity) (initialMode : SecurityMode)
    (record : Record) : Arm N :=
  if record.payload.length ≠ cookieLen || !call.cookieValid record.payload then
    challenge setup call l previous
  else if previous.any (fun state => state.session.isSome) then (l, .ok previous)
  else greet setup call l localKey initialMode

def serverFirst (handshake : ResponderHandshake N) (started : Instant) (record : Record) : Arm N :=
  match handshake.readFirst record.payload with
  | .error e => (l, .error (mapSecurityError e))
  | .ok handshake =>
    match handshake.writeResponse with
    | .error e => (l, .error (mapSecurityError e))
    | .ok response =>
      match sendReliable setup call l ⟨.handshake, 0, response⟩ l.shared.config.maxDatagramSize with
      | (l, .error e) => (l, .error e)
      | (l, .ok ()) => (l, .ok (some (.serverFinish handshake started)))

def acceptedRoute (config : RuntimeConfig) (peer : SocketAddr) : SessionRoute where
  endpoint := setup.endpoint
  target :=
    if setup.kind = .kcp then .kcp peer
    else .udp peer (config.maxDatagramSize - encryptedUdpWireOverhead)
  established := false
  authDecision := true
  securityCommands := true
  allowsGameControls := true

/-- The last handshake message at a server: the session is registered and its authorization is
requested from the application. -/
def serverFinish (handshake : ResponderHandshake N) (initialMode : SecurityMode) (record : Record) :
    Arm N :=
  match handshake.finishDatagram record.payload with
  | .error e => (l, .error (mapSecurityError e))
  | .ok (join, peerKey, transport) =>
    match l.shared.insertSessionRoute (acceptedRoute setup l.shared.config call.peer) with
    | (shared, .error e) => ({ l with shared := shared }, .error e)
    | (shared, .ok session) =>
      match pushEvent call { l with shared := shared }
        { eventType := .authRequest, endpoint := setup.endpoint, session := session
          data := peerKey ++ join } with
      | (l, .error e) => (l, .error e)
      | (l, .ok ()) => (l, .ok (some (.serverAuth session transport initialMode call.now)))

/-! ### Client arms -/

/-- A cookie challenge at a client: the hello is repeated with the cookie. -/
def answerChallenge (session : Handle) (started : Instant) (record : Record) : Arm N :=
  match sendReliable setup call l ⟨.clientHello, 0, record.payload⟩ 128 with
  | (l, .error e) => (l, .error e)
  | (l, .ok ()) => (l, .ok (some (.clientHello session started)))

/-- A server hello at a client: the announced key must be trusted before a handshake starts. -/
def serverHello (session : Handle) (started : Instant) (join : Bytes) (record : Record) : Arm N :=
  if record.payload.length ≠ 33 then (l, protocol "invalid server hello")
  else
    match SecurityMode.ofByte (record.payload.headD 0) with
    | .error e => (l, .error e)
    | .ok mode =>
      match setup.clientSecurity with
      | none => (l, .error ⟨.invalidState, "missing client security"⟩)
      | some identity =>
        if !identity.peerVerifier (record.payload.drop 1) then
          (l, .error ⟨.peerKeyMismatch, "server rejected"⟩)
        else
          match InitiatorHandshake.new identity.localKey call.seed (record.payload.drop 1) with
          | .error e => (l, .error (mapSecurityError e))
          | .ok handshake =>
            match sendReliable setup call l ⟨.handshake, 0, handshake.writeFirst⟩
              l.shared.config.maxDatagramSize with
            | (l, .error e) => (l, .error e)
            | (l, .ok ()) => (l, .ok (some (.clientResponse session handshake join mode started)))

def clientResponse (session : Handle) (handshake : InitiatorHandshake N) (join : Bytes)
    (mode : SecurityMode) (started : Instant) (record : Record) : Arm N :=
  match handshake.readResponse record.payload with
  | .error e => (l, .error (mapSecurityError e))
  | .ok handshake =>
    match handshake.finishDatagram join with
    | .error e => (l, .error (mapSecurityError e))
    | .ok (finish, transport) =>
      match sendReliable setup call l ⟨.handshake, 0, finish⟩ l.shared.config.maxDatagramSize with
      | (l, .error e) => (l, .error e)
      | (l, .ok ()) => (l, .ok (some (.clientAuth session transport mode call.now started)))

/-- Whether a decrypted message accepts the client in the negotiated mode. -/
def checkDecision (mode : SecurityMode) (message : ProtectedMessage) : Result Unit :=
  if message.kind ≠ .authDecision then .error ⟨.authRejected, "authentication rejected"⟩
  else
    match message.payload with
    | [1, authenticatedMode] =>
      if authenticatedMode = mode.toByte then .ok ()
      else protocol "server security mode changed during negotiation"
    | _ => .error ⟨.authRejected, "authentication rejected"⟩

def clientAuth (session : Handle) (transport : DatagramTransport N) (mode : SecurityMode)
    (record : Record) : Arm N :=
  match decrypt transport record l.shared.config.maxBodyLen with
  | (_, .error e) => (l, .error e)
  | (transport, .ok message) =>
    match checkDecision mode message with
    | .error e => (l, .error e)
    | .ok () =>
      match sendProtectedResponse setup call l transport initialEpoch .authAck [] 32 with
      | (l, _, .error e) => (l, .error e)
      | (l, transport, .ok ()) =>
        match l.shared.markSessionEstablished session with
        | (shared, .error e) => ({ l with shared := shared }, .error e)
        | (shared, .ok ()) =>
          match pushEvent call { l with shared := shared }
            (sessionEvent .sessionOpened setup.endpoint session) with
          | (l, .error e) => (l, .error e)
          | (l, .ok ()) =>
            (l, .ok (some (.established session transport (.new .client mode initialEpoch) false
              call.now none)))

/-! ### Dispatch -/

def joinArm (previous : Option (Peer N)) (record : Record) : Arm N :=
  match setup.security, previous, record.kind with
  | .adaptiveServer _ _, some (.serverReject expiresAt), _ =>
    (l, .ok (some (.serverReject expiresAt)))
  | .adaptiveServer localKey initialMode, previous, .clientHello =>
    clientHello setup call l previous localKey initialMode record
  | .adaptiveClient _, some (.clientHello session started), .cookieChallenge =>
    answerChallenge setup call l session started record
  | .adaptiveClient join, some (.clientHello session started), .serverHello =>
    serverHello setup call l session started join record
  | _, some (.serverFirst handshake started), .handshake =>
    serverFirst setup call l handshake started record
  | _, some (.clientResponse session handshake join mode started), .handshake =>
    clientResponse setup call l session handshake join mode started record
  | .adaptiveServer _ initialMode, some (.serverFinish handshake _), .handshake =>
    serverFinish setup call l handshake initialMode record
  | _, some (.clientAuth session transport mode _ _), .protectedRecord =>
    clientAuth setup call l session transport mode record
  | _, previous, _ => (l, .ok previous)

/-- The established arm: its peer is put back whatever the receive path answers. -/
def establishedArm (session : Handle) (t : DatagramTransport N) (c : SecurityController)
    (commands : Bool) (lastActivity : Instant) (transitionDeadline : Option Instant)
    (record : Record) : Local N × Result Unit :=
  let out := handleEstablished setup call l session t c record
  match out.result with
  | .error e =>
    (setPeer out.loc (some (.established session out.transport out.controller commands
      lastActivity transitionDeadline)), .error e)
  | .ok () =>
    (setPeer out.loc (some (.established session out.transport out.controller commands call.now
      (if out.controller.isTransitioning then transitionDeadline else none))), .ok ())

/-- Whether a record of an established peer reaches the receive path: at a server a hello does not. -/
def reachesSession (record : Record) : Bool :=
  match setup.security, record.kind with
  | .adaptiveServer _ _, .clientHello => false
  | _, _ => true

/-- One decoded record. -/
def process (record : Record) : Local N × Result Unit :=
  match l.slot.peer, reachesSession setup record with
  | some (.established session t c commands lastActivity deadline), true =>
    establishedArm setup call (setPeer l none) session t c commands lastActivity deadline record
  | previous, _ =>
    match joinArm setup call (setPeer l none) previous record with
    | (l, .error e) => (l, .error e)
    | (l, .ok next) => (setPeer l next, .ok ())

end Rnet.Transport.Process
