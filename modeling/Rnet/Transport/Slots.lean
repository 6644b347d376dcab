import Rnet.Security.Controller
import Rnet.Security.Handshake
import Rnet.Transport.State

/-! # What the datagram worker holds for one address

The source keeps a dozen maps from socket addresses: peer states, deferred messages, unanswered
control records, cached responses, KCP engines and authorizations, admission permits, automatic
rekeys. `Slot` collects the entries of one address. Every routine that serves a peer touches the
entries of its own address only, besides the state shared with the application and four numbers of
the endpoint, so it is a function on `Local`: the slot together with these.

`Call` holds what the environment decides during one call: the clock, whether the socket takes a
datagram and the event queue an event, the randomness of a new handshake, the cookie guard, and how
many other addresses have entries in the bounded maps. -/

namespace Rnet.Transport.Slots

open Rnet.Core Lib.BigEndian Protocol.Records Security.Cipher Security.Controller Security.Handshake
open Config State

/-- Epoch of a new session. -/
def initialEpoch : ℕ := 1

/-- Handshake or established state of one address. -/
inductive Peer (N : Noise)
  | cookie (expiresAt : Instant)
  | serverFirst (handshake : ResponderHandshake N) (started : Instant)
  | serverFinish (handshake : ResponderHandshake N) (started : Instant)
  | serverAuth (session : Handle) (transport : DatagramTransport N) (mode : SecurityMode)
    (authStarted : Instant)
  | serverReject (expiresAt : Instant)
  | clientHello (session : Handle) (started : Instant)
  | clientResponse (session : Handle) (handshake : InitiatorHandshake N) (join : Bytes)
    (mode : SecurityMode) (started : Instant)
  | clientAuth (session : Handle) (transport : DatagramTransport N) (mode : SecurityMode)
    (authStarted connectStarted : Instant)
  | established (session : Handle) (transport : DatagramTransport N)
    (controller : SecurityController) (commands : Bool) (lastActivity : Instant)
    (transitionDeadline : Option Instant)
  deriving DecidableEq

namespace Peer

variable {N : Noise}

/-- Session of a peer. -/
def session : Peer N → Option Handle
  | serverAuth s .. => some s
  | clientHello s .. => some s
  | clientResponse s .. => some s
  | clientAuth s .. => some s
  | established s .. => some s
  | cookie .. => none
  | serverFirst .. => none
  | serverFinish .. => none
  | serverReject .. => none

/-- The peer is established. -/
def isEstablished : Peer N → Bool
  | established .. => true
  | _ => false

end Peer

/-- Automatic key rotation of a server session. -/
structure AutoRekey where
  after : Option ℕ
  afterBytes : Option ℕ
  lastStarted : Instant
  encryptedBytes : ℕ
  deriving DecidableEq

namespace AutoRekey

/-- Thresholds of the policy. -/
def new (policy : SecurityPolicy) (now : Instant) : AutoRekey :=
  ⟨policy.rekeyAfter, policy.rekeyAfterBytes, now, 0⟩

/-- `record_encrypted_bytes`, saturating. -/
def recordEncryptedBytes (r : AutoRekey) (bytes : ℕ) : AutoRekey :=
  { r with encryptedBytes := min (r.encryptedBytes + bytes) u64Max }

/-- A threshold is reached. -/
def isDue (r : AutoRekey) (now : Instant) : Bool :=
  r.after.any (fun threshold => threshold ≤ now - r.lastStarted) ||
    r.afterBytes.any (fun threshold => threshold ≤ r.encryptedBytes)

/-- Counting starts again. -/
def markStarted (r : AutoRekey) (now : Instant) : AutoRekey :=
  { r with lastStarted := now, encryptedBytes := 0 }

end AutoRekey

/-- A control record that waits for its answer. -/
structure PendingRecord where
  bytes : Bytes
  lastSent : Instant
  attempts : ℕ
  deriving DecidableEq

/-- The last control input of an address and what answered it. -/
structure SeenRecord where
  request : Bytes
  response : Option Bytes
  deriving DecidableEq

/-- A KCP engine: its conversation, its unacknowledged segments, whether it failed, and the records it
was given so far. -/
structure KcpEngine where
  conv : ℕ
  waitSnd : ℕ
  failed : Bool
  queued : List Bytes
  deriving DecidableEq

/-- The entries of one address in the worker's maps. -/
structure Slot (N : Noise) where
  peer : Option (Peer N)
  deferred : List Outbound
  pending : Option PendingRecord
  seen : Option SeenRecord
  activeInput : Option Bytes
  activePending : Option Bytes
  engine : Option KcpEngine
  authorized : Option ℕ
  preflight : Option Instant
  permit : Bool
  rekey : Option AutoRekey
  deriving DecidableEq

def Slot.empty (N : Noise) : Slot N where
  peer := none
  deferred := []
  pending := none
  seen := none
  activeInput := none
  activePending := none
  engine := none
  authorized := none
  preflight := none
  permit := false
  rekey := none

/-- Server key and initial mode, or the join payload of a client. -/
inductive EndpointSecurity (N : Noise)
  | adaptiveServer (localKey : N.Identity) (initialMode : SecurityMode)
  | adaptiveClient (joinPayload : Bytes)

/-- Identity of a client and the server keys it trusts. -/
structure ClientSecurity (N : Noise) where
  localKey : N.Identity
  peerVerifier : Bytes → Bool

/-- What an endpoint was opened with. -/
structure Setup (N : Noise) where
  endpoint : Handle
  kind : Transport
  security : EndpointSecurity N
  clientSecurity : Option (ClientSecurity N)

/-- `validate_join_payload`, a check that every way to open a client makes. -/
def validateJoinPayload (config : RuntimeConfig) (payload : Bytes) : Result Unit :=
  if min config.maxBodyLen (60 * 1024) < payload.length then
    .error ⟨.messageTooLarge, "join payload exceeds the configured handshake limit"⟩
  else .ok ()

/-- The answer to a request for plaintext that the policy does not allow. -/
def plaintextDisabled : RnetError :=
  ⟨.notSupported, "plaintext business data is disabled by security policy"⟩

/-- What `open_endpoint` checks of a setup: the join payload of a client, and that a server starts in
plaintext mode only if the policy allows it. -/
def Setup.openEndpoint (setup : Setup N) (config : RuntimeConfig) : Result Unit :=
  match setup.security with
  | .adaptiveClient join => validateJoinPayload config join
  | .adaptiveServer _ mode =>
    if mode = .plaintext ∧ config.securityPolicy.allowPlaintextBusinessData = false then
      .error plaintextDisabled
    else .ok ()

/-- Numbers of other addresses with an entry in the bounded maps. -/
structure Others where
  peers : ℕ
  pending : ℕ
  seen : ℕ
  engines : ℕ
  authorized : ℕ
  deriving DecidableEq

/-- Length of a cookie. -/
def cookieLen : ℕ := 40

/-- What `CookieGuard::issue` returns. -/
structure Cookie where
  bytes : Bytes
  length_eq : bytes.length = cookieLen
  deriving DecidableEq

/-- What the environment decides during one call. `sendError` is what the system says when the socket
does not take a datagram. -/
structure Call (N : Noise) where
  peer : SocketAddr
  now : Instant
  sendOk : Bool
  sendError : String
  eventRoom : Bool
  admission : Bool
  seed : N.Seed
  cookieValid : Bytes → Bool
  cookieIssue : Cookie
  others : Others

/-- An application message the wire took at an address, with the session whose transport and
controller encoded it. -/
structure Handed where
  peer : SocketAddr
  session : Handle
  outbound : Outbound
  deriving DecidableEq

/-- What a routine serving one peer reads and writes. -/
structure Local (N : Noise) where
  slot : Slot N
  shared : Shared
  kcpQueuedBytes : ℕ
  deferredCount : ℕ
  sent : List Bytes
  handed : List Handed

end Rnet.Transport.Slots
