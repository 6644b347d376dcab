import Rnet.Lib.GuardedRun
import Rnet.Transport.KcpPreflight
import Rnet.Transport.Maintenance
import Rnet.Transport.Sending

/-! # The datagram endpoint

One UDP or KCP endpoint: the worker's maps, its write queue and cleanup channel, the state it shares
with public calls, and the public calls themselves. A step is one branch of the worker's loop, or of a
tick, at one address, or one public call; a send is two steps, since other threads run between its
route lookup and its offer to the queue. Messages a KCP datagram completes wait in `inbox` until the
worker has served them.

`admitted` and `handed` are the history the results talk about: the messages in the order the write
queue took them, and the messages the wire took with the session that encoded them. -/

namespace Rnet.Transport.Worker

open Rnet.Core Lib.BigEndian Lib.FiniteMap Lib.GuardedRun Protocol.Records Security.Cipher
open Config State Slots Wire Process Maintenance KcpPreflight Sending

variable {N : Noise}

/-- A send between its route lookup and its offer to the write queue. -/
structure Offer where
  session : Handle
  peer : SocketAddr
  bytes : Bytes
  kind : OutboundKind
  latestKey : Option ℕ
  deriving DecidableEq

/-- A datagram endpoint. -/
structure Endpoint (N : Noise) where
  slots : Table SocketAddr (Slot N)
  shared : Shared
  kcpQueuedBytes : ℕ
  deferredCount : ℕ
  inbox : List (SocketAddr × Bytes)
  receiver : List (SocketAddr × Outbound)
  offers : List Offer
  admitted : List Outbound
  remote : Option SocketAddr
  candidates : List SocketAddr
  initialSession : Option Handle
  connectDeadline : Option Instant
  alive : Bool
  sent : List (SocketAddr × Bytes)
  handed : List Handed

namespace Endpoint

variable (setup : Setup N) (ep : Endpoint N) (call : Call N)

def slot (a : SocketAddr) : Slot N := (ep.slots.lookup a).getD (.empty N)

/-- Number of addresses other than `a` whose slot satisfies `p`. -/
def countOthers (a : SocketAddr) (p : Slot N → Bool) : ℕ :=
  countP ep.slots fun b s => b ≠ a && p s

def others (a : SocketAddr) : Others where
  peers := ep.countOthers a fun s => s.peer.isSome
  pending := ep.countOthers a fun s => s.pending.isSome
  seen := ep.countOthers a fun s => s.seen.isSome
  engines := ep.countOthers a fun s => s.engine.isSome
  authorized := ep.countOthers a fun s => s.authorized.isSome

def answer : Call N :=
  { call with others := ep.others call.peer }

def view (a : SocketAddr) : Local N where
  slot := ep.slot a
  shared := ep.shared
  kcpQueuedBytes := ep.kcpQueuedBytes
  deferredCount := ep.deferredCount
  sent := []
  handed := ep.handed

/-- Takes over what a routine serving `a` left behind. -/
def put (a : SocketAddr) (l : Local N) : Endpoint N :=
  { ep with
    slots := ep.slots.insert a l.slot
    shared := l.shared
    kcpQueuedBytes := l.kcpQueuedBytes
    deferredCount := l.deferredCount
    sent := ep.sent ++ l.sent.map fun bytes => (a, bytes)
    handed := l.handed }

@[simp] theorem slot_put (a b : SocketAddr) (l : Local N) :
    (ep.put a l).slot b = if b = a then l.slot else ep.slot b := by
  simp only [slot, put, lookup_insert_ite]
  split_ifs <;> rfl

theorem total_put (a : SocketAddr) (he : f (.empty N) = 0) :
    ∃ others, total ep.slots f = others + f (ep.slot a) ∧ ∀ l, total (ep.put a l).slots f =
      others + f l.slot := by
  have hs : ((ep.slots.lookup a).map f).getD 0 = f (ep.slot a) := by
    unfold slot
    cases ep.slots.lookup a with
    | none => exact he.symm
    | some s => rfl
  have hi : ∀ s, total (ep.slots.insert a s) f + f (ep.slot a) = total ep.slots f + f s := by
    intro s
    rw [← hs]
    exact total_insert ep.slots f a s
  refine ⟨total (ep.slots.insert a (.empty N)) f, ?_, fun l => ?_⟩
  · rw [hi, he, Nat.add_zero]
  have hl := hi l.slot
  have hn := hi (.empty N)
  change total (ep.slots.insert a l.slot) f = _
  omega

/-- `fail_endpoint`: every session of the endpoint is closed and the worker ends. -/
def fail (client : Option Handle) (code : ErrorCode) : Endpoint N :=
  { ep with
    alive := false
    shared := ep.shared.sessions.keys.foldl
      (fun s session => s.close session code (client = some session)) ep.shared }

/-! ### Branches of the worker -/

/-- An address with an engine is past its preflight. -/
def endPreflight (l : Local N) : Local N :=
  if l.slot.engine.isSome then { l with slot := { l.slot with preflight := none } } else l

/-- The receive branch up to the delivered messages. -/
def datagram (packet : Bytes) (kcp : KcpInput) : Endpoint N :=
  let a := call.peer
  match handlePreflight setup ep.remote (ep.answer call) (ep.view a) packet with
  | (l, .error e) => (ep.put a l).fail ep.initialSession e.code
  | (l, .ok true) => ep.put a l
  | (l, .ok false) =>
    if setup.kind = .kcp then
      match receiveKcp (ep.answer call) l kcp with
      | (l, .error _) => ep.put a l
      | (l, .ok delivered) =>
        { ep.put a (endPreflight l) with inbox := ep.inbox ++ delivered.map fun bytes => (a, bytes) }
    else { ep.put a l with inbox := ep.inbox ++ [(a, packet)] }

def serve : Endpoint N :=
  match ep.inbox with
  | [] => ep
  | (a, bytes) :: rest =>
    let call := { call with peer := a }
    let served := receiveRecord setup ep.remote ep.initialSession (ep.answer call) (ep.view a) bytes
    let ep := { ep.put a served.1 with inbox := rest }
    match served.2 with
    | none => ep
    | some (session, e) => ep.fail session e.code

/-- The write-queue branch; it is disabled while too many messages are deferred. -/
def outbound : Endpoint N :=
  match ep.receiver with
  | [] => ep
  | (a, o) :: rest =>
    if ep.deferredCount < ep.shared.config.writeQueueCapacity then
      let call := { call with peer := a }
      { ep.put a (takeOutbound setup (ep.answer call) (ep.view a) o) with receiver := rest }
    else ep

def cleanup : Endpoint N :=
  match ep.shared.cleanup with
  | [] => ep
  | request :: rest =>
    let ep := { ep with shared := { ep.shared with cleanup := rest } }
    ep.put request.peer (cleanupPeer (ep.view request.peer) request.session)

/-- Session of a client whose current step timed out. -/
def pendingClientTimeout (now timeout : ℕ) : Peer N → Option Handle
  | .clientHello session started => if timeout ≤ now - started then some session else none
  | .clientResponse session _ _ _ started => if timeout ≤ now - started then some session else none
  | .clientAuth session _ _ _ connectStarted =>
    if timeout ≤ now - connectStarted then some session else none
  | _ => none

/-- The last candidate timed out. -/
def finalClientTimeout (now timeout : ℕ) : Peer N → Bool
  | .clientAuth _ _ _ authStarted _ => timeout ≤ now - authStarted
  | state => (pendingClientTimeout now timeout state).isSome

def connectTimeout (now : Instant) : Endpoint N :=
  match ep.remote with
  | none => ep
  | some current =>
    match (ep.slot current).peer with
    | none => ep
    | some state =>
      let final := ep.candidates.isEmpty &&
        finalClientTimeout now ep.shared.config.handshakeTimeout state
      if (ep.connectDeadline.any (fun d => d ≤ now) || final) && !state.isEstablished then
        match state.session with
        | none => { ep with alive := false }
        | some session => ep.fail (some session) .timeout
      else ep

/-- `send_client_hello`; a KCP client starts with a preflight hello of conversation `conv`. -/
def sendClientHello (l : Local N) (conv : ℕ) : Local N × Result Unit :=
  if setup.kind = .kcp then sendTo call l (encodeHello conv [])
  else sendReliable setup call l ⟨.clientHello, 0, []⟩ 128

def abandon (current : SocketAddr) (rest : List SocketAddr) : Endpoint N :=
  let l := removePeer (setPeer (ep.view current) none)
  { ep.put current { l with slot := { l.slot with
      preflight := none, permit := false, rekey := none } } with
    candidates := rest }

def approach (conv : ℕ) (session : Handle) : Endpoint N :=
  let next := call.peer
  match ep.shared.retargetDatagramSession session next with
  | (shared, .error e) => { ep with shared := shared }.fail (some session) e.code
  | (shared, .ok ()) =>
    let ep := { ep with shared := shared }
    match sendClientHello setup (ep.answer call) (ep.view next) conv with
    | (l, .error e) => (ep.put next l).fail (some session) e.code
    | (l, .ok ()) =>
      { ep.put next (setPeer l (some (.clientHello session call.now))) with remote := some next }

/-- The failover of a tick: a client that timed out tries its next address. `rebound` is whether
the socket could be replaced when the address family changes. -/
def retryCandidate (conv : ℕ) (rebound : Bool) : Endpoint N :=
  match ep.remote, ep.candidates with
  | some current, next :: rest =>
    match (ep.slot current).peer.bind
      (pendingClientTimeout call.now ep.shared.config.handshakeTimeout) with
    | none => ep
    | some session =>
      let ep := ep.abandon current rest
      if !rebound then ep.fail (some session) .ioError
      else ep.approach setup { call with peer := next } conv session
  | _, _ => ep

/-- Retransmission at one address, and the end of a peer whose control record expired. -/
def retryPeer : Endpoint N :=
  let a := call.peer
  match retry setup (ep.answer call) (ep.view a) with
  | (l, false) => ep.put a l
  | (l, true) =>
    match expirePeer ep.remote call l with
    | (l, none) => ep.put a l
    | (l, some session) => (ep.put a l).fail (some session) .timeout

/-- What a tick reclaims at one address: an expired preflight, and the permit and rekey record of
an address without a peer. -/
def reclaim (now : Instant) (l : Local N) : Local N :=
  let expired := l.slot.preflight.any fun d => d ≤ now
  let slot := if expired then
    { l.slot with preflight := none, authorized := none, permit := false } else l.slot
  { l with slot := { slot with
    permit := slot.permit && (slot.peer.isSome || slot.preflight.isSome)
    rekey := if slot.peer.isSome then slot.rekey else none } }

/-! ### Public calls -/

/-- The route lookup and budget checks of a send. -/
def prepareSend (usage : Usage) (session : Handle) (frame : Bytes) (kind : OutboundKind)
    (latestKey : Option ℕ) : Endpoint N :=
  match prepare ep.shared usage session frame kind with
  | .error _ => ep
  | .ok (target, bytes) =>
    match target.peer with
    | none => ep
    | some peer => { ep with offers := ep.offers ++ [⟨session, peer, bytes, kind, latestKey⟩] }

/-- The write queue takes a message if it has room and the worker still runs. -/
def enqueue (peer : SocketAddr) (o : Outbound) : Endpoint N :=
  if ep.alive && ep.receiver.length < ep.shared.config.writeQueueCapacity then
    { ep with receiver := ep.receiver ++ [(peer, o)], admitted := ep.admitted ++ [o] }
  else ep

/-- The offer of a prepared send. A replaceable message takes over the slot its key still has in
the registry, and otherwise queues a placeholder for a new slot. -/
def offer (index : ℕ) : Endpoint N :=
  match ep.offers[index]? with
  | none => ep
  | some f =>
    let ep := { ep with offers := ep.offers.eraseIdx index }
    match f.latestKey with
    | none => ep.enqueue f.peer ⟨f.bytes, f.kind, none, f.session, ep.admitted.length⟩
    | some key =>
      match ep.shared.latestKeys.find? fun k =>
        k.1 = f.session && k.2.1 = key && (ep.shared.latestSlots.lookup k.2.2).isSome with
      | some k =>
        { ep with shared := { ep.shared with
          latestSlots := ep.shared.latestSlots.insert k.2.2 f.bytes } }
      | none =>
        let slot := ep.shared.nextSlot
        let ep' := { ep with shared := { ep.shared with
          latestSlots := ep.shared.latestSlots.insert slot f.bytes
          latestKeys := (f.session, key, slot) :: ep.shared.latestKeys
          nextSlot := slot + 1 } }
        if ep.alive && ep.receiver.length < ep.shared.config.writeQueueCapacity then
          ep'.enqueue f.peer ⟨[], f.kind, some slot, f.session, ep.admitted.length⟩
        else ep

/-- A public `close_session`. -/
def closeSession (session : Handle) (reason : ErrorCode) : Endpoint N :=
  { ep with shared := ep.shared.close session reason false }

/-- `auth_decide`: the decision of a session is taken once. -/
def authDecide (session : Handle) (accepted : Bool) : Endpoint N :=
  match ep.shared.sessions.lookup session with
  | none => ep
  | some route =>
    if route.authDecision then
      { ep with shared := { ep.shared with
        sessions := ep.shared.sessions.insert session { route with authDecision := false }
        authDecisions := ep.shared.authDecisions.insert session accepted } }
    else ep

/-- `send_security_command`: the channel of a server session holds one command, also before the
session is established. -/
def sendSecurityCommand (session : Handle) (cmd : SecurityCommand) : Endpoint N × Result Unit :=
  match ep.shared.sessions.lookup session with
  | none => (ep, .error ⟨.invalidHandle, "invalid session"⟩)
  | some route =>
    if !route.securityCommands then
      (ep, .error ⟨.invalidState, "session is not controlled by an adaptive server"⟩)
    else if (ep.shared.commands.lookup session).getD [] ≠ [] then
      (ep, .error ⟨.wouldBlock, "security transition already queued"⟩)
    else
      ({ ep with shared := { ep.shared with
        commands := ep.shared.commands.insert session [cmd] } }, .ok ())

/-- `set_security_mode`: plaintext only if the policy allows it. -/
def setSecurityMode (session : Handle) (mode : SecurityMode) : Endpoint N × Result Unit :=
  if mode = .plaintext ∧ ep.shared.config.securityPolicy.allowPlaintextBusinessData = false then
    (ep, .error plaintextDisabled)
  else ep.sendSecurityCommand session (.setMode mode)

/-- A public `rekey_session`. -/
def rekeySession (session : Handle) : Endpoint N × Result Unit :=
  ep.sendSecurityCommand session .rekey

/-- The call by which an application asks for a command. -/
def command (session : Handle) : SecurityCommand → Endpoint N
  | .setMode mode => (ep.setSecurityMode session mode).1
  | .rekey => (ep.rekeySession session).1

/-- A command that is taken waits in the channel of its session, and nothing else changes. -/
theorem command_cases (session : Handle) (cmd : SecurityCommand) :
    ep.command session cmd = ep ∨ ep.command session cmd =
      { ep with shared := { ep.shared with
        commands := ep.shared.commands.insert session [cmd] } } := by
  have hs : (ep.sendSecurityCommand session cmd).1 = ep ∨ (ep.sendSecurityCommand session cmd).1 =
      { ep with shared := { ep.shared with
        commands := ep.shared.commands.insert session [cmd] } } := by
    unfold sendSecurityCommand
    split
    · exact .inl rfl
    split_ifs
    · exact .inl rfl
    · exact .inl rfl
    · exact .inr rfl
  cases cmd with
  | rekey => exact hs
  | setMode mode =>
    dsimp only [command, setSecurityMode]
    split_ifs
    · exact .inl rfl
    · exact hs

end Endpoint

/-! ### Runs -/

inductive Input (N : Noise)
  | datagram (call : Call N) (packet : Bytes) (kcp : KcpInput)
  | serve (call : Call N)
  | outbound (call : Call N)
  | cleanup
  | connectTimeout (now : Instant)
  | retryCandidate (call : Call N) (conv : ℕ) (rebound : Bool)
  | reclaim (call : Call N)
  | driveServer (call : Call N)
  | flushDeferred (call : Call N)
  | retry (call : Call N)
  | prepareSend (usage : Usage) (session : Handle) (frame : Bytes) (kind : OutboundKind)
    (latestKey : Option ℕ)
  | offer (index : ℕ)
  | closeSession (session : Handle) (reason : ErrorCode)
  | authDecide (session : Handle) (accepted : Bool)
  | command (session : Handle) (cmd : SecurityCommand)

/-- Whether the worker can take a branch of its loop: it runs and has served what it received. -/
def Endpoint.idle (ep : Endpoint N) : Bool := ep.alive && ep.inbox.isEmpty

/-- One branch of the worker or one public call. -/
def step (setup : Setup N) (ep : Endpoint N) : Input N → Endpoint N
  | .datagram call packet kcp => if ep.idle then ep.datagram setup call packet kcp else ep
  | .serve call => if ep.alive then ep.serve setup call else ep
  | .outbound call => if ep.idle then ep.outbound setup call else ep
  | .cleanup => if ep.idle then ep.cleanup else ep
  | .connectTimeout now => if ep.idle then ep.connectTimeout now else ep
  | .retryCandidate call conv rebound =>
    if ep.idle then ep.retryCandidate setup call conv rebound else ep
  | .reclaim call =>
    if ep.idle then ep.put call.peer (Endpoint.reclaim call.now (ep.view call.peer)) else ep
  | .driveServer call =>
    if ep.idle then
      ep.put call.peer (Maintenance.driveServer setup (ep.answer call) (ep.view call.peer))
    else ep
  | .flushDeferred call =>
    if ep.idle then
      ep.put call.peer (Maintenance.flushDeferred setup (ep.answer call) (ep.view call.peer))
    else ep
  | .retry call => if ep.idle then ep.retryPeer setup call else ep
  | .prepareSend usage session frame kind latestKey =>
    ep.prepareSend usage session frame kind latestKey
  | .offer index => ep.offer index
  | .closeSession session reason => ep.closeSession session reason
  | .authDecide session accepted => ep.authDecide session accepted
  | .command session cmd => ep.command session cmd

/-- A server without peers. -/
def Endpoint.server (config : RuntimeConfig) : Endpoint N where
  slots := ∅
  shared := .initial config
  kcpQueuedBytes := 0
  deferredCount := 0
  inbox := []
  receiver := []
  offers := []
  admitted := []
  remote := none
  candidates := []
  initialSession := none
  connectDeadline := none
  alive := true
  sent := []
  handed := []

def clientRoute (setup : Setup N) (config : RuntimeConfig) (peer : SocketAddr) : SessionRoute :=
  { acceptedRoute setup config peer with authDecision := false, securityCommands := false }

/-- A client endpoint whose hello was sent. -/
def Endpoint.client (setup : Setup N) (config : RuntimeConfig) (call : Call N) (conv : ℕ)
    (candidates : List SocketAddr) (connectDeadline : Option Instant) : Endpoint N :=
  let ep : Endpoint N := { Endpoint.server config with
    shared := ((Shared.initial config).insertSessionRoute (clientRoute setup config call.peer)).1
    remote := some call.peer
    candidates := candidates
    initialSession := some 1
    connectDeadline := connectDeadline }
  let l := (Endpoint.sendClientHello setup (ep.answer call) (ep.view call.peer) conv).1
  ep.put call.peer (setPeer l (some (.clientHello 1 call.now)))

/-- Runs of an endpoint that was opened under a validated configuration: a server, or a client whose
hello the socket took. -/
def machine (setup : Setup N) : Machine (Endpoint N) (Input N) where
  init ep := ∃ config room, config.validate room = .ok () ∧ setup.openEndpoint config = .ok () ∧
    (ep = .server config ∨ ∃ call conv candidates deadline, call.sendOk = true ∧
      ep = .client setup config call conv candidates deadline)
  step := step setup

end Rnet.Transport.Worker
