import Rnet.Lib.GuardedRun
import Rnet.Game.Network
import Rnet.Game.RangeState
import Rnet.Game.Resume

/-! # The game runtime

The tables of a game runtime over its network runtime, the conversion of transport events, the version
negotiation and the public calls. Every call that takes the poll lock is one step and waits for a poll
in progress; a poll itself is cut where it gives up the tables (between two converted events, around
the fetching of events and around the maintenance), and in between the workers may do what they can do
to the shared state.

The priorities and the fairness of the two staging queues only decide which message is forwarded
next, so the next message is an argument, as is whether their budgets have room. The measurements of
the heartbeat and clock trackers are left out: whether a tracker admits a probe, is due or timed out
is part of the environment of a step. The iteration order of hash tables is that of their entries
here.

`returned`, `published` and `redeemed` record what polls returned, what `publish_range_ready`
announced and the version pinned by the ticket each candidate redeemed; no function reads them. -/

namespace Rnet.Game.Runtime

open Rnet.Core Lib.BigEndian Lib.FiniteMap Lib.GuardedRun
open Protocol.Records (SecurityMode)
open Transport.Config (RuntimeConfig SocketAddr)
open Transport.Session (SecurityOperation)
open Envelope (ControlKind DecodedEnvelope encodeControl encodeApplication encodeUdpApplication
  decode protocolError)
open Join Controls Event RangeState Resume Network

/-- What a server session needs to issue tickets. -/
structure ServerSessionMeta where
  peerKey : Bytes
  protocol : SelectedProtocol
  deriving DecidableEq

/-- State of the resume feature. -/
structure ResumeRuntimeState where
  tickets : ResumeRegistry
  serverSessions : Table Handle ServerSessionMeta
  pendingServer : Table Handle ResumeClaim
  inflightServer : Table Handle Handle
  revokedInflight : Table Handle Unit
  clientEndpoints : Table Handle Handle
  ttl : ℕ

/-- Stages of a poll. -/
inductive PollStage
  | flushing | draining | drained | maintaining | fetching | waited
  deriving DecidableEq

/-- A poll in progress. -/
structure Poll where
  capacity : ℕ
  output : List GameEvent
  internalEvents : ℕ
  batch : List Core.Event
  deferred : Bool
  stage : PollStage

/-- A message to send, with its metadata. -/
structure Outgoing where
  payload : Bytes
  sequence : Option UInt32
  tick : Option UInt32
  correlationId : UInt64
  deriving DecidableEq

/-- State of the game layer. -/
structure GameRuntime where
  network : NetworkRuntime
  endpointTransports : Table Handle Transport
  sessionEndpoints : Table Handle Handle
  udpSessions : Table Handle UInt32
  heartbeatTrackers : Table Handle Unit
  clockTrackers : Table Handle Bool
  admission : Table Handle Unit
  scheduled : List (Handle × Outgoing)
  realtime : Table (Handle × UInt64) Outgoing
  resume : ResumeRuntimeState
  range : RangeRuntimeState
  poll : Option Poll
  returned : List GameEvent
  published : List GameEvent
  redeemed : Table Handle UInt32

/-- A session the heartbeat driver acts on: its heartbeat timed out, or a probe is due, with the
challenge that the random source gave. -/
inductive HeartbeatTick
  | timedOut
  | probeDue (challenge : Option UInt64)
  deriving DecidableEq

/-- What the surroundings decide in one step. -/
structure Env where
  now : Instant
  /-- Budgets and worker queue of each session. -/
  channel : Handle → Channel
  /-- The transport loses the route of a session between its READY and its publication. -/
  vanishes : Bool
  /-- The worker no longer waits for an authorization decision. -/
  decisionExpired : Bool
  /-- The heartbeat tracker admits a probe, the clock tracker admits a probe. -/
  probeAdmitted : Bool
  /-- An acknowledged heartbeat changed the grade of the connection. -/
  qualityChanged : Bool
  /-- Sessions whose heartbeat timed out or is due. -/
  heartbeats : List (Handle × HeartbeatTick)
  /-- Clock probes to send. -/
  clockProbes : List (Handle × UInt64 × UInt64)
  /-- Receive and send time of a clock reply. -/
  clockTimes : UInt64 × UInt64
  /-- The timeout of the poll has passed. -/
  timedOut : Bool

namespace GameRuntime

variable (env : Env) (g : GameRuntime) (p : Poll)

/-- Largest envelope, which is the body limit of the network. -/
def maximumEnvelopeLen : ℕ := g.network.shared.config.maxBodyLen

/-- `build`. Invalid heartbeat and quality policies are refused too and are not modelled. -/
def build (config : RuntimeConfig) (clockRoom ttl maxResumeTickets : ℕ) (sign : Nonce → Tag) :
    Result GameRuntime :=
  if config.maxBodyLen < max Join.headerLen (12 + replyLen) then
    .error ⟨.invalidArgument,
      "maximum body length cannot contain the game join header or clock reply"⟩
  else
    match validateTtl ttl, ResumeRegistry.new sign maxResumeTickets, config.validate clockRoom with
    | .error e, _, _ => .error e
    | _, .error e, _ => .error e
    | _, _, .error e => .error e
    | .ok (), .ok tickets, .ok () =>
      .ok { network := .initial config
            endpointTransports := ∅
            sessionEndpoints := ∅
            udpSessions := ∅
            heartbeatTrackers := ∅
            clockTrackers := ∅
            admission := ∅
            scheduled := []
            realtime := ∅
            resume := ⟨tickets, ∅, ∅, ∅, ∅, ∅, ttl⟩
            range := .withBufferLimits config.eventQueueCapacity config.maxEventBytes
            poll := none
            returned := []
            published := []
            redeemed := ∅ }

/-! ### Cleanup -/

/-- The resume feature forgets a session. -/
def forgetResumeSession (r : ResumeRuntimeState) (session : Handle) : ResumeRuntimeState :=
  { r with
    serverSessions := r.serverSessions.erase session
    pendingServer := r.pendingServer.erase session
    inflightServer := filter r.inflightServer fun _ new => new ≠ session
    revokedInflight :=
      filter r.revokedInflight fun old _ => r.inflightServer.lookup old ≠ some session }

/-- Everything kept for a session is dropped. -/
def forgetReadySession (session : Handle) : GameRuntime :=
  { g with
    sessionEndpoints := g.sessionEndpoints.erase session
    heartbeatTrackers := g.heartbeatTrackers.erase session
    clockTrackers := g.clockTrackers.erase session
    udpSessions := g.udpSessions.erase session
    admission := g.admission.erase session
    scheduled := g.scheduled.filter fun m => m.1 ≠ session
    realtime := filter g.realtime fun key _ => key.1 ≠ session
    resume := forgetResumeSession g.resume session
    range := g.range.forgetSession session }

def closeRoute (session : Handle) (reason : ErrorCode) : GameRuntime :=
  { g with network := (g.network.closeSession session reason).1 }

/-- Closes the route of a session and forgets it. -/
def discard (session : Handle) (reason : ErrorCode) : GameRuntime :=
  (g.closeRoute session reason).forgetReadySession session

/-- Candidates that redeemed a ticket of a session and wait for authorization. -/
def pendingOf (r : ResumeRuntimeState) (session : Handle) : List Handle :=
  (filter r.pendingServer fun _ claim => claim.oldSession = session).entries.map Sigma.fst

/-- The locked part of `revoke_resume_session`. -/
def revokeClaims (r : ResumeRuntimeState) (session : Handle) : ResumeRuntimeState :=
  { r with
    tickets := r.tickets.revokeSession session
    pendingServer := filter r.pendingServer fun _ claim => claim.oldSession ≠ session
    serverSessions := filter r.serverSessions fun new _ => new ∉ pendingOf r session
    revokedInflight :=
      if (r.inflightServer.lookup session).isSome then r.revokedInflight.insert session ()
      else r.revokedInflight }

/-- Revokes the ticket and the claims on a session. -/
def revokeResumeSession (session : Handle) : GameRuntime :=
  (pendingOf g.resume session ++ (g.resume.inflightServer.lookup session).toList).foldl
    (fun g new => g.discard new .cancelled) { g with resume := revokeClaims g.resume session }

def ownedSessions (endpoint : Handle) : List Handle :=
  (filter g.sessionEndpoints fun _ owner => owner = endpoint).entries.map Sigma.fst

/-- Everything kept for an endpoint is dropped. -/
def forgetEndpointState (endpoint : Handle) : GameRuntime :=
  let g := { g with resume := { g.resume with tickets := g.resume.tickets.revokeEndpoint endpoint } }
  let g := (g.ownedSessions endpoint).foldl
    (fun g session => (g.revokeResumeSession session).forgetReadySession session) g
  { g with
    resume := { g.resume with clientEndpoints := g.resume.clientEndpoints.erase endpoint }
    endpointTransports := g.endpointTransports.erase endpoint
    range := g.range.forgetEndpoint endpoint }

def staleEndpoints : List Handle :=
  (filter g.endpointTransports fun endpoint _ => (g.network.endpoints.lookup endpoint).isNone
    ).entries.map Sigma.fst

/-- Forgets the endpoints the network has closed. -/
def reapClosedEndpoints : GameRuntime :=
  if size g.endpointTransports ≤ size g.network.endpoints then g
  else g.staleEndpoints.foldl forgetEndpointState g

/-! ### Controls -/

/-- Encodes a control and admits it for sending. -/
def sendControl (kind : ControlKind) (session : Handle) (payload : Bytes) :
    GameRuntime × Result Unit :=
  match encodeControl kind payload g.maximumEnvelopeLen with
  | .error e => (g, .error e)
  | .ok envelope =>
    ({ g with network := (g.network.sendGameControl (env.channel session) session envelope).1 },
      (g.network.sendGameControl (env.channel session) session envelope).2)

/-- Sends a control of the negotiation. -/
def sendRangeControl (session : Handle) (control : Selection) : GameRuntime × Result Unit :=
  sendControl env g .protocol session (selectionPayload control)

/-- Backpressure is not a failure: the control is repeated. -/
def tolerate : Result Unit → Result Unit
  | .error e => if e.code = .wouldBlock then .ok () else .error e
  | .ok () => .ok ()

/-- The session was announced. -/
def ensureGameReady (session : Handle) : Result Unit :=
  if (g.admission.lookup session).isSome then .ok ()
  else
    match g.network.validatePayloadLen session 0 with
    | .error e => .error e
    | .ok () => .error ⟨.handshakeRequired, "game session is not ready"⟩

/-! ### Version negotiation -/

/-- The end of `publish_range_ready`: the session becomes ready and retires its predecessor. -/
def announce (endpoint session : Handle) (oldSession : Option Handle) :
    GameRuntime × Result (Option GameEvent) :=
  let g := { g with admission := g.admission.insert session () }
  match oldSession with
  | none =>
    ({ g with published := g.published ++ [.sessionReady endpoint session] },
      .ok (some (.sessionReady endpoint session)))
  | some old =>
    let g := g.discard old .cancelled
    ({ g with published := g.published ++ [.sessionResumed endpoint old session] },
      .ok (some (.sessionResumed endpoint old session)))

/-- Announces a session that completed its negotiation. -/
def publishRangeReady (endpoint session : Handle) (oldSession : Option Handle) (serverResume : Bool) :
    GameRuntime × Result (Option GameEvent) :=
  let g := if env.vanishes then { g with network := g.network.drop session .ioError false } else g
  match g.network.validatePayloadLen session 0 with
  | .error _ => (g.forgetReadySession session, .ok none)
  | .ok () =>
    if serverResume then
      match oldSession with
      | none => (g, .error (protocolError "resumed server session has no prior handle"))
      | some old =>
        if (g.resume.revokedInflight.lookup old).isSome ∨
            g.resume.inflightServer.lookup old ≠ some session then
          (discard { g with resume := { g.resume with
            revokedInflight := g.resume.revokedInflight.erase old
            inflightServer := g.resume.inflightServer.erase old } } session .cancelled, .ok none)
        else
          announce { g with resume := { g.resume with
            inflightServer := g.resume.inflightServer.erase old } } endpoint session oldSession
    else announce g endpoint session oldSession

def setSession (session : Handle) (state : RangeSession) : GameRuntime :=
  { g with range := { g.range with sessions := g.range.sessions.insert session state } }

def acceptSelect (session : Handle) (state : RangeSession) (control : Selection) :
    GameRuntime × Result (Option GameEvent) :=
  if control.version < state.protocol.minVersion ∨ state.protocol.maxVersion < control.version ∨
      (state.selected.isSome ∧ state.selected ≠ some control.version) ∨
      (state.serverHandle ≠ 0 ∧ state.serverHandle ≠ control.serverHandle) then
    (g, .error (protocolError "server selected an invalid protocol version"))
  else
    let state := { state with
      selected := some control.version
      serverHandle := control.serverHandle
      phase := .clientAwaitReady
      nextRetry := env.now + retryInterval }
    let sent := sendRangeControl env (g.setSession session state) session (state.control Controls.ack)
    (sent.1, (tolerate sent.2).map fun _ => none)

/-- The client's acknowledgment arrives at a server: READY is admitted before anything is published.
-/
def acceptAck (endpoint session : Handle) (state : RangeSession) (control : Selection) :
    GameRuntime × Result (Option GameEvent) :=
  if state.selected ≠ some control.version ∨ state.serverHandle ≠ control.serverHandle then
    (g, .error (protocolError "protocol acknowledgment does not match selection"))
  else
    let sent := sendRangeControl env g session (state.control ready)
    match sent.2 with
    | .error e => (sent.1, if e.code = .wouldBlock then .ok none else .error e)
    | .ok () =>
      if state.phase = .serverReady then (sent.1, .ok none)
      else
        let g := sent.1.setSession session { state with phase := .serverReady }
        publishRangeReady env { g with range := g.range.completeBuffered session } endpoint session
          state.oldSession state.serverResume

def acceptReady (endpoint session : Handle) (state : RangeSession) (control : Selection) :
    GameRuntime × Result (Option GameEvent) :=
  if state.selected ≠ some control.version ∨ state.serverHandle ≠ control.serverHandle then
    (g, .error (protocolError "protocol final confirmation does not match selection"))
  else
    let g := g.setSession session { state with phase := .clientReady }
    publishRangeReady env { g with range := g.range.completeBuffered session } endpoint session
      state.oldSession false

/-- The transition of a control that belongs to the session. -/
def negotiate (endpoint session : Handle) (state : RangeSession) (control : Selection) :
    GameRuntime × Result (Option GameEvent) :=
  let unexpected : GameRuntime × Result (Option GameEvent) :=
    (g, .error (protocolError "unexpected protocol negotiation transition"))
  let matching : Bool :=
    state.selected == some control.version && state.serverHandle == control.serverHandle
  match state.phase with
  | .clientAwaitSelect =>
    if control.operation = select then acceptSelect env g session state control else unexpected
  | .clientAwaitReady =>
    if control.operation = select then acceptSelect env g session state control
    else if control.operation = ready then acceptReady env g endpoint session state control
    else unexpected
  | .clientReady =>
    if (control.operation = ready ∨ control.operation = select) ∧ matching then (g, .ok none)
    else unexpected
  | .serverAwaitAck | .serverReady =>
    if control.operation = Controls.ack then acceptAck env g endpoint session state control
    else unexpected
  | .serverAwaitOpen => unexpected

/-- A control of the negotiation. -/
def handleRangeControl (event : Core.Event) (payload : Bytes) :
    GameRuntime × Result (Option GameEvent) :=
  if payload.length ≠ controlLen then
    (g, .error (protocolError "invalid protocol selection length"))
  else
    let control := readSelection payload
    match g.range.sessions.lookup event.session with
    | none => (g, .error (protocolError "protocol control on non-v4 session"))
    | some state =>
      if state.endpoint ≠ event.endpoint ∨ state.nonce ≠ control.nonce ∨
          state.protocol.protocolId ≠ control.protocolId ∨ control.version = 0 ∨
          control.serverHandle = 0 then
        (g, .error (protocolError "protocol selection does not match session"))
      else if state.deadline ≤ env.now ∧ state.phase.isReady = false then
        (g, .error (protocolError "protocol selection expired"))
      else negotiate env g event.endpoint event.session state control

/-- `start_range_session`: an opened session starts to negotiate. -/
def startRangeSession (endpoint session : Handle) (oldSession : Option Handle) (serverResume : Bool) :
    GameRuntime × Result Unit :=
  match g.range.sessions.lookup session with
  | some state =>
    if state.phase ≠ .serverAwaitOpen then
      (g, .error ⟨.protocolError, "duplicate v4 session open"⟩)
    else
      let state := { state with
        phase := .serverAwaitAck
        oldSession := oldSession
        serverResume := serverResume
        deadline := env.now + negotiationTimeout
        nextRetry := env.now + retryInterval }
      let sent := sendRangeControl env (g.setSession session state) session (state.control select)
      (sent.1, tolerate sent.2)
  | none =>
    match g.range.clientEndpoints.lookup endpoint with
    | none => (g, .error (protocolError "session has no registered game negotiation"))
    | some pending =>
      ({ g with range := { g.range with
        clientEndpoints := g.range.clientEndpoints.erase endpoint
        sessions := g.range.sessions.insert session
          { endpoint := endpoint
            protocol := pending.protocol
            nonce := pending.nonce
            selected := none
            serverHandle := 0
            oldSession := oldSession
            serverResume := false
            phase := .clientAwaitSelect
            deadline := env.now + negotiationTimeout
            nextRetry := env.now + retryInterval
            buffered := []
            bufferedBytes := 0 } } }, .ok ())

/-- `drive_range_negotiation`: controls are repeated, candidates past their deadline discarded. -/
def driveRangeNegotiation : GameRuntime :=
  let due := g.range.dueControls env.now
  let g := due.2.1.foldl (fun g retry => (sendRangeControl env g retry.1 retry.2).1)
    { g with range := due.1 }
  due.2.2.foldl (fun g session => g.discard session .timeout) g

/-! ### Authorization requests -/

/-- Refuses a join request. -/
def rejectGameJoin (event : Core.Event) : GameRuntime × GameEvent :=
  ({ g with network := (g.network.authDecide event.session false env.decisionExpired).1 },
    .protocolRejected event.endpoint event.session .protocolError)

/-- The ticket part of `range_auth_request`: a ticket is only consumed for a version both sides
support. -/
def redeem (tickets : ResumeRegistry) (ticket : Bytes) (endpoint : Handle) (peerKey : Bytes)
    (client server : GameProtocol) (now : Instant) :
    ResumeRegistry × Result (UInt32 × ResumeClaim) :=
  match tickets.pinnedVersion ticket endpoint peerKey client.protocolId now with
  | (tickets, .error e) => (tickets, .error e)
  | (tickets, .ok version) =>
    if version < client.minVersion ∨ client.maxVersion < version ∨ version < server.minVersion ∨
        server.maxVersion < version then
      (tickets, .error (protocolError "resume version is outside the supported range"))
    else
      match tickets.consume ticket endpoint peerKey ⟨client.protocolId, version⟩ now with
      | (tickets, .error e) => (tickets, .error e)
      | (tickets, .ok claim) => (tickets, .ok (version, claim))

/-- The end of `range_auth_request`: the candidate is registered and the application is asked. -/
def registerCandidate (event : Core.Event) (peerKey : Bytes) (join : RangeJoinRequest)
    (selected : UInt32) (claim : Option ResumeClaim) : GameRuntime × GameEvent :=
  let g := g.setSession event.session
    { endpoint := event.endpoint
      protocol := join.protocol
      nonce := join.nonce
      selected := some selected
      serverHandle := event.session
      oldSession := none
      serverResume := false
      phase := .serverAwaitOpen
      deadline := env.now + negotiationTimeout
      nextRetry := env.now
      buffered := []
      bufferedBytes := 0 }
  let g := { g with resume := { g.resume with
    serverSessions := g.resume.serverSessions.insert event.session
      ⟨peerKey, ⟨join.protocol.protocolId, selected⟩⟩ } }
  match claim with
  | some claim =>
    ({ g with
      resume := { g.resume with
        pendingServer := g.resume.pendingServer.insert event.session claim }
      redeemed := g.redeemed.insert event.session selected },
      .resumeRequest event.endpoint event.session claim.oldSession claim.identity peerKey join.ticket
        join.protocol.buildId join.protocol.capabilities)
  | none =>
    (g, .authRequest event.endpoint event.session peerKey join.ticket join.protocol.buildId
      join.protocol.capabilities)

/-- A join request as an event of the game layer. -/
def rangeAuthRequest (event : Core.Event) (peerKey joinPayload : Bytes) : GameRuntime × GameEvent :=
  match g.range.serverEndpoints.lookup event.endpoint, decodeRange joinPayload with
  | none, _ => rejectGameJoin env g event
  | _, .error _ => rejectGameJoin env g event
  | some protocol, .ok join =>
    match join.resumeTicket with
    | none =>
      match selectVersion join.protocol protocol with
      | none => rejectGameJoin env g event
      | some version => registerCandidate env g event peerKey join version none
    | some ticket =>
      let redeemed := redeem g.resume.tickets ticket event.endpoint peerKey join.protocol protocol
        env.now
      let g := { g with resume := { g.resume with tickets := redeemed.1 } }
      match redeemed.2 with
      | .error _ => rejectGameJoin env g event
      | .ok (version, claim) => registerCandidate env g event peerKey join version (some claim)

/-- An authorization request; a registered candidate is owned by its endpoint from now on. -/
def convertAuthRequest (event : Core.Event) : GameRuntime × Result (Option GameEvent) :=
  if event.data.length < 32 then
    (g, .error ⟨.invalidArgument, "event is not a valid authentication request"⟩)
  else
    let converted := rangeAuthRequest env g event (event.data.take 32) (event.data.drop 32)
    match converted.2 with
    | .protocolRejected _ _ _ => (converted.1, .ok (some converted.2))
    | _ =>
      ({ converted.1 with
        sessionEndpoints := converted.1.sessionEndpoints.insert event.session event.endpoint },
        .ok (some converted.2))

/-! ### Conversion of transport events -/

/-- The claim of an opened session becomes its negotiation's, without touching the old route. -/
def takeClaim (r : ResumeRuntimeState) (endpoint session : Handle) :
    ResumeRuntimeState × Option Handle × Bool :=
  match r.pendingServer.lookup session with
  | some claim =>
    ({ r with
      pendingServer := r.pendingServer.erase session
      inflightServer := r.inflightServer.insert claim.oldSession session },
      some claim.oldSession, true)
  | none =>
    ({ r with clientEndpoints := r.clientEndpoints.erase endpoint },
      r.clientEndpoints.lookup endpoint, false)

/-- Trackers of an opened session. -/
def track (endpoint session : Handle) (transport : Transport) : GameRuntime :=
  { g with
    heartbeatTrackers := g.heartbeatTrackers.insert session ()
    clockTrackers := g.clockTrackers.insert session (g.range.serverEndpoints.lookup endpoint).isNone
    udpSessions := if transport = .udp then g.udpSessions.insert session 0 else g.udpSessions
    sessionEndpoints := g.sessionEndpoints.insert session endpoint }

def convertSessionOpened (event : Core.Event) : GameRuntime × Result (Option GameEvent) :=
  match g.endpointTransports.lookup event.endpoint with
  | none => (g.closeRoute event.session .cancelled, .ok none)
  | some transport =>
    match g.network.validatePayloadLen event.session 0 with
    | .error _ => (g, .ok none)
    | .ok () =>
      let taken := takeClaim g.resume event.endpoint event.session
      let g := track { g with resume := taken.1 } event.endpoint event.session transport
      let started := startRangeSession env g event.endpoint event.session taken.2.1 taken.2.2
      (started.1, started.2.map fun _ => none)

/-- A heartbeat of the other side. -/
def handleHeartbeatEvent (event : Core.Event) (payload : Bytes) :
    GameRuntime × Result (Option GameEvent) :=
  match decodeHeartbeat payload with
  | .error e => (g, .error e)
  | .ok packet =>
    if (g.heartbeatTrackers.lookup event.session).isNone then (g, .ok none)
    else
      match packet.kind with
      | .probe =>
        if !env.probeAdmitted then (g, .ok none)
        else
          -- A refused reply is not malformed input of the peer, a too small limit is an error.
          match encodeControl .heartbeat (heartbeatPayload ⟨.ack, packet.challenge⟩)
              g.maximumEnvelopeLen with
          | .error e => (g, .error e)
          | .ok _ =>
            ((sendControl env g .heartbeat event.session
              (heartbeatPayload ⟨.ack, packet.challenge⟩)).1, .ok none)
      | .ack =>
        (g, .ok (if env.qualityChanged then some (.qualityChanged event.endpoint event.session)
          else none))

/-- A clock packet of the other side. -/
def handleClockSyncEvent (event : Core.Event) (payload : Bytes) :
    GameRuntime × Result (Option GameEvent) :=
  match ensureGameReady g event.session with
  | .error _ => (g, .ok none)
  | .ok () =>
    match decodeClock payload with
    | .error e => (g, .error e)
    | .ok packet =>
      match g.clockTrackers.lookup event.session with
      | none => (g, .ok none)
      | some client =>
        let wrongRole := (g, .error (protocolError "clock sync control has wrong endpoint role"))
        match packet with
        | .probe nonce t1 =>
          if client then wrongRole
          else if !env.probeAdmitted then (g, .ok none)
          else
            let reply := clockPayload (.reply nonce t1 env.clockTimes.1 env.clockTimes.2)
            match encodeControl .clockSync reply g.maximumEnvelopeLen with
            | .error e => (g, .error e)
            | .ok _ => ((sendControl env g .clockSync event.session reply).1, .ok none)
        | .reply _ _ _ _ => if client then (g, .ok none) else wrongRole

def handleResumeTicket (event : Core.Event) (payload : Bytes) :
    GameRuntime × Result (Option GameEvent) :=
  if payload.length ≠ ticketLen ∨ (g.range.serverEndpoints.lookup event.endpoint).isSome then
    (g, .error (protocolError "invalid resume ticket control"))
  else
    match ensureGameReady g event.session with
    | .error _ => (g, .ok none)
    | .ok () => (g, .ok (some (.resumeTicket event.endpoint event.session payload)))

/-- A game control of the other side. -/
def handleGameControlEvent (event : Core.Event) : GameRuntime × Result (Option GameEvent) :=
  match decode event.data g.maximumEnvelopeLen with
  | .error e => (g, .error e)
  | .ok (.control .heartbeat payload) => handleHeartbeatEvent env g event payload
  | .ok (.control .clockSync payload) => handleClockSyncEvent env g event payload
  | .ok (.control .resume payload) => handleResumeTicket g event payload
  | .ok (.control .protocol payload) => handleRangeControl env g event payload
  | .ok (.application _ _ _ _) =>
    (g, .error (protocolError "unsupported game control for this runtime version"))

/-- Only UDP sessions carry a transport sequence. -/
def observeDatagramSequence (session : Handle) (sequence : Option UInt32) : Result Unit :=
  if (g.udpSessions.lookup session).isSome = sequence.isSome then .ok ()
  else .error (protocolError "game data has an invalid transport-owned sequence")

/-- Reads an application message. -/
def decodeBusinessMessage (event : Core.Event) : Result GameMessage :=
  if event.status ≠ .ok then
    .error (protocolError "game message carries an unsuccessful transport status")
  else
    match decode event.data g.maximumEnvelopeLen with
    | .error e => .error e
    | .ok (.control _ _) =>
      .error (protocolError "game control envelope received on the business channel")
    | .ok (.application sequence tick datagramSequence payload) =>
      match observeDatagramSequence g event.session datagramSequence with
      | .error e => .error e
      | .ok () =>
        .ok { endpoint := event.endpoint, session := event.session, sequence := sequence
              tick := tick, correlationId := event.correlationId, payload := payload }

/-- Buffers an early message, or passes it on. -/
def convertBusinessEvent (event : Core.Event) : GameRuntime × Result (Option GameEvent) :=
  match decodeBusinessMessage g event with
  | .error e => (g, if event.integrityVerified then .error e else .ok none)
  | .ok message =>
    ({ g with range := (g.range.bufferMessage message).1 }, (g.range.bufferMessage message).2)

/-- `SecurityChange::from_event`. -/
def securityChange (event : Core.Event) : Result (SecurityMode × UInt64 × SecurityOperation) :=
  if event.data.length ≠ 10 then
    .error ⟨.invalidArgument, "event is not a valid security change"⟩
  else
    match SecurityMode.ofByte (event.data.getD 0 0) with
    | .error e => .error e
    | .ok mode =>
      let epoch := UInt64.ofNat (field event.data 1 8)
      if event.data.getD 9 0 = 1 then .ok (mode, epoch, .modeSwitch)
      else if event.data.getD 9 0 = 2 then .ok (mode, epoch, .rekey)
      else .error ⟨.invalidArgument, "security event has an unknown operation"⟩

/-- An event of the network as one of the game layer. -/
def convertEvent (event : Core.Event) : GameRuntime × Result (Option GameEvent) :=
  match event.eventType with
  | .runtimeStarted => (g, .ok (some .runtimeStarted))
  | .endpointOpened => (g, .ok (some (.endpointOpened event.endpoint)))
  | .endpointError =>
    (g.reapClosedEndpoints, .ok (some (.endpointError event.endpoint event.status)))
  | .authRequest => convertAuthRequest env g event
  | .sessionOpened => convertSessionOpened env g event
  | .sessionClosed =>
    (g.forgetReadySession event.session,
      .ok (some (.sessionClosed event.endpoint event.session event.status)))
  | .gameControl => handleGameControlEvent env g event
  | .message => convertBusinessEvent g event
  | .writable => (g, .ok (some (.writable event.endpoint event.session)))
  | .runtimeStopped => (g, .ok (some .runtimeStopped))
  | .joinFailed =>
    ({ g with
      resume := { g.resume with clientEndpoints := g.resume.clientEndpoints.erase event.endpoint }
      range := g.range.forgetFailedClientEndpoint event.endpoint },
      .ok (some (.joinFailed event.endpoint event.session event.status)))
  | .securityChanged =>
    (g, (securityChange event).map fun change =>
      some (.securityChanged event.endpoint event.session (change.1 = .encrypted) change.2.1
        change.2.2))

/-- What becomes public of a conversion: an error closes the session and is announced. -/
def resolve (event : Core.Event) (converted : GameRuntime × Result (Option GameEvent)) :
    GameRuntime × Option GameEvent :=
  match converted.2 with
  | .ok outcome => (converted.1, outcome)
  | .error _ =>
    (if event.session ≠ 0 then converted.1.closeRoute event.session .protocolError else converted.1,
      some (.protocolViolation event.endpoint event.session))

/-- Stages the public event of a conversion and moves what fits to the output. -/
def stage (outcome : Option GameEvent) : GameRuntime × Poll :=
  let queued : RangeRuntimeState × List GameEvent × Bool :=
    match outcome with
    | none => (g.range, p.output, false)
    | some event => g.range.queuePublic event p.output p.capacity
  let drained := queued.1.drainCompleted queued.2.1 p.capacity
  ({ g with range := drained.1 },
    { p with output := drained.2, deferred := p.deferred || queued.2.2 })

/-- Converts an event and stages the result. -/
def convertNext (event : Core.Event) : GameRuntime × Poll :=
  let resolved := resolve event (convertEvent env g event)
  resolved.1.stage p resolved.2

/-! ### Maintenance -/

/-- Why the driver closes the session of a tick, if it does. -/
def heartbeatFailure (maximumLen : ℕ) : HeartbeatTick → Option ErrorCode
  | .timedOut => some .timeout
  | .probeDue none => some .cryptoError
  | .probeDue (some challenge) =>
    match encodeControl .heartbeat (heartbeatPayload ⟨.probe, challenge⟩) maximumLen with
    | .error _ => some .messageTooLarge
    | .ok _ => none

def sendProbe (tick : Handle × HeartbeatTick) : GameRuntime :=
  match tick.2 with
  | .probeDue (some challenge) =>
    (sendControl env g .heartbeat tick.1 (heartbeatPayload ⟨.probe, challenge⟩)).1
  | _ => g

def closeFailed (tick : Handle × HeartbeatTick) : GameRuntime :=
  match heartbeatFailure g.maximumEnvelopeLen tick.2 with
  | some reason =>
    { g.closeRoute tick.1 reason with heartbeatTrackers := g.heartbeatTrackers.erase tick.1 }
  | none => g

/-- The failed sessions are closed after all trackers were visited. -/
def driveHeartbeats : GameRuntime :=
  let tracked := env.heartbeats.filter fun tick => (g.heartbeatTrackers.lookup tick.1).isSome
  tracked.foldl closeFailed (tracked.foldl (sendProbe env) g)

/-- Sends the clock probes that are due. -/
def driveClockSync : GameRuntime :=
  env.clockProbes.foldl (fun g probe =>
    if g.clockTrackers.lookup probe.1 = some true then
      (sendControl env g .clockSync probe.1 (clockPayload (.probe probe.2.1 probe.2.2))).1
    else g) g

/-- The three drivers, in the order every poll runs them. -/
def maintain : GameRuntime :=
  driveRangeNegotiation env (driveClockSync env (driveHeartbeats env g))

/-! ### Polling -/

def nonblockingEventBatch : ℕ := 64
def maxInternalEventsPerPoll : ℕ := 1024

/-- Takes events within the public capacity. -/
def pollNetworkWithBudget (capacity : ℕ) : GameRuntime × List Core.Event :=
  let limits := g.range.publicCapacity
  let polled := g.network.pollEventsWithByteLimit (min capacity limits.1) limits.2
  ({ g with network := polled.1 }, polled.2)

/-- The start of `poll`, up to the flush of the staging queues. -/
def beginPoll (capacity : ℕ) : GameRuntime :=
  { g.reapClosedEndpoints with
    poll := some
      { capacity := capacity, output := [], internalEvents := 0, batch := []
        deferred := false, stage := .flushing } }

/-- What an earlier poll had no room for is carried over. -/
def carryOver : GameRuntime :=
  let drained := g.range.drainCompleted p.output p.capacity
  { g with
    range := drained.1
    poll := some { p with output := drained.2, stage := .draining } }

def endPoll (output : List GameEvent) : GameRuntime :=
  { g with poll := none, returned := g.returned ++ output }

def batchSize : ℕ :=
  if p.capacity - p.output.length = 0 then 1
  else min (min (maxInternalEventsPerPoll - p.internalEvents) nonblockingEventBatch)
    (p.capacity - p.output.length)

/-- One turn of the draining loop. -/
def drainTurn : GameRuntime :=
  if p.deferred ∨ maxInternalEventsPerPoll ≤ p.internalEvents then
    { g with poll := some { p with stage := .drained } }
  else
    let fetched := g.pollNetworkWithBudget (batchSize p)
    if fetched.2 = [] then { fetched.1 with poll := some { p with stage := .drained } }
    else
      { fetched.1 with poll := some { p with
        internalEvents := p.internalEvents + fetched.2.length, batch := fetched.2 } }

/-- One step of a poll. -/
def advance : GameRuntime :=
  match p.batch with
  | event :: rest =>
    let p := { p with batch := rest }
    let converted := convertNext env { g with poll := some p } p event
    { converted.1 with poll := some converted.2 }
  | [] =>
    match p.stage with
    | .flushing => g.carryOver p
    | .draining => g.drainTurn p
    | .drained =>
      -- A poll that carried events over, has no capacity or collected some returns them here.
      if p.capacity = 0 ∨ p.output ≠ [] then (maintain env g).endPoll p.output
      else if maxInternalEventsPerPoll ≤ p.internalEvents then (maintain env g).endPoll []
      else
        let g := if p.internalEvents ≠ 0 then maintain env g else g
        { g with poll := some { p with stage := .maintaining } }
    | .maintaining => { maintain env g with poll := some { p with stage := .fetching } }
    | .fetching =>
      let fetched := g.pollNetworkWithBudget
        (min p.capacity (maxInternalEventsPerPoll - p.internalEvents))
      let p := { p with
        internalEvents := p.internalEvents + fetched.2.length
        batch := fetched.2
        deferred := false
        stage := .waited }
      reapClosedEndpoints { fetched.1 with poll := some p }
    | .waited =>
      let g := maintain env g
      if p.output ≠ [] ∨ env.timedOut ∨ maxInternalEventsPerPoll ≤ p.internalEvents then
        g.endPoll p.output
      else { g with poll := some { p with deferred := false, stage := .draining } }

/-! ### Public calls -/

/-- Opens a server. -/
def listen (transport : Transport) (protocol : GameProtocol) (opened : Result Unit) :
    GameRuntime × Result Handle :=
  if protocol.isValid = false then (g, .error ⟨.invalidArgument, "invalid protocol range"⟩)
  else
    match g.network.openEndpoint true transport none opened with
    | (network, .error e) => ({ g with network := network }, .error e)
    | (network, .ok endpoint) =>
      ({ g with
        network := network
        range := { g.range with serverEndpoints := g.range.serverEndpoints.insert endpoint protocol }
        endpointTransports := g.endpointTransports.insert endpoint transport }, .ok endpoint)

/-- A new connection: its transport, what it offers and the random nonce it draws. -/
structure Connection where
  transport : Transport
  protocol : GameProtocol
  nonce : Option Nonce
  joinTicket : Bytes
  /-- Previous session and ticket of a resumption. -/
  resume : Option (Handle × Bytes)
  opened : Result Unit
  deriving DecidableEq

/-- `connect`, `connect_resume` and their variants with a host name. -/
def connect (c : Connection) : GameRuntime × Result Handle :=
  if c.resume.any (fun r => r.1 = 0 || r.2.length ≠ ticketLen) then
    (g, .error ⟨.invalidArgument, "invalid range resume request"⟩)
  else if c.protocol.isValid = false then
    (g, .error ⟨.invalidArgument,
      if c.resume.isSome then "invalid range resume request" else "invalid protocol range"⟩)
  else
    match c.nonce with
    | none => (g, .error ⟨.cryptoError, "protocol nonce RNG failed"⟩)
    | some nonce =>
      if nonce = .zero then (g, .error ⟨.cryptoError, "protocol nonce RNG returned zero"⟩)
      else
        match encodeRange ⟨c.protocol, nonce, c.joinTicket, c.resume.map Prod.snd⟩
            (min g.maximumEnvelopeLen (60 * 1024)) with
        | .error e => (g, .error e)
        | .ok payload =>
          match g.network.openEndpoint false c.transport (some payload) c.opened with
          | (network, .error e) => ({ g with network := network }, .error e)
          | (network, .ok endpoint) =>
            ({ g with
              network := network
              endpointTransports := g.endpointTransports.insert endpoint c.transport
              resume := { g.resume with
                clientEndpoints := c.resume.elim g.resume.clientEndpoints fun r =>
                  g.resume.clientEndpoints.insert endpoint r.1 }
              range := { g.range with
                clientEndpoints := g.range.clientEndpoints.insert endpoint ⟨c.protocol, nonce⟩ } },
              .ok endpoint)

/-- The application answers a join request. -/
def authDecide (session : Handle) (accept expired : Bool) : GameRuntime × Result Unit :=
  match g.network.authDecide session accept expired with
  | (network, .error e) => ({ g with network := network }, .error e)
  | (network, .ok ()) =>
    if accept then ({ g with network := network }, .ok ())
    else (forgetReadySession { g with network := network } session, .ok ())

/-- `issue_resume_ticket`; a ticket that cannot be sent is taken back. -/
def issueResumeTicket (env : Env) (draws : ℕ → Option Nonce) (session : Handle) (identity : Bytes) :
    GameRuntime × Result Unit :=
  match ensureGameReady g session with
  | .error e => (g, .error e)
  | .ok () =>
    match g.sessionEndpoints.lookup session with
    | none => (g, .error ⟨.invalidHandle, "game session closed"⟩)
    | some endpoint =>
      match g.resume.serverSessions.lookup session with
      | none => (g, .error ⟨.notSupported, "only server sessions can issue tickets"⟩)
      | some info =>
        let issued := g.resume.tickets.issue ⟨endpoint, session, info.peerKey, info.protocol⟩ identity
          env.now g.resume.ttl draws
        let g := { g with resume := { g.resume with tickets := issued.1 } }
        match issued.2 with
        | .error e => (g, .error e)
        | .ok ticket =>
          let sent := sendControl env g .resume session ticket
          match sent.2 with
          | .ok () => (sent.1, .ok ())
          | .error e =>
            ({ sent.1 with resume := { sent.1.resume with
              tickets := sent.1.resume.tickets.revokeTicket ticket } }, .error e)

/-- `send_game_application`: on UDP a refused message does not use up its sequence. -/
def sendGameApplication (session : Handle) (m : Outgoing) : GameRuntime × Result Unit :=
  match ensureGameReady g session with
  | .error e => (g, .error e)
  | .ok () =>
    match g.udpSessions.lookup session with
    | some next =>
      match encodeUdpApplication m.payload m.sequence m.tick next g.maximumEnvelopeLen with
      | .error e => (g, .error e)
      | .ok envelope =>
        match g.network.sendWithOptions (env.channel session) session envelope m.correlationId with
        | (network, .error e) => ({ g with network := network }, .error e)
        | (network, .ok ()) =>
          ({ g with network := network, udpSessions := g.udpSessions.insert session (next + 1) },
            .ok ())
    | none =>
      match encodeApplication m.payload m.sequence m.tick g.maximumEnvelopeLen with
      | .error e => (g, .error e)
      | .ok envelope =>
        ({ g with network := (g.network.sendWithOptions (env.channel session) session envelope
            m.correlationId).1 },
          (g.network.sendWithOptions (env.channel session) session envelope m.correlationId).2)

def admits (session : Handle) (payload : Bytes) (full : String) (room : Bool) : Result Unit :=
  match ensureGameReady g session with
  | .error e => .error e
  | .ok () =>
    match g.network.validatePayloadLen session
        (payload.length + if (g.udpSessions.lookup session).isSome then 16 else 12) with
    | .error e => .error e
    | .ok () => if room then .ok () else .error ⟨.wouldBlock, full⟩

/-- `send_scheduled`; `room` is whether the budgets of the queue have room. -/
def sendScheduled (session : Handle) (m : Outgoing) (room : Bool) : GameRuntime × Result Unit :=
  match g.admits session m.payload "scheduled game queue budget is full" room with
  | .error e => (g, .error e)
  | .ok () => ({ g with scheduled := g.scheduled ++ [(session, m)] }, .ok ())

/-- `send_latest_with_tick`: a newer snapshot of a key replaces the pending one. -/
def sendLatest (session : Handle) (key : UInt64) (payload : Bytes) (tick : Option UInt32)
    (room : Bool) : GameRuntime × Result Unit :=
  match g.admits session payload "realtime queue budget is full" room with
  | .error e => (g, .error e)
  | .ok () =>
    ({ g with realtime := g.realtime.insert (session, key) ⟨payload, none, tick, 0⟩ }, .ok ())

/-- One turn of `flush_scheduled_inner`; `expired` is whether the message is past its deadline. -/
def flushScheduled (index : ℕ) (expired : Bool) : GameRuntime :=
  match g.scheduled[index]? with
  | none => g
  | some (session, m) =>
    let popped := { g with scheduled := g.scheduled.eraseIdx index }
    if expired then popped
    else
      let sent := sendGameApplication env popped session m
      match sent.2 with
      | .ok () => sent.1
      | .error e =>
        if e.code = .wouldBlock then { sent.1 with scheduled := sent.1.scheduled ++ [(session, m)] }
        else sent.1

/-- One turn of `flush_realtime_inner`; `room` is whether a refused snapshot fits again. -/
def flushRealtime (key : Handle × UInt64) (room : Bool) : GameRuntime :=
  match g.realtime.lookup key with
  | none => g
  | some m =>
    let sent := sendGameApplication env { g with realtime := g.realtime.erase key } key.1 m
    match sent.2 with
    | .ok () => sent.1
    | .error e =>
      if e.code = .wouldBlock ∧ room then { sent.1 with realtime := sent.1.realtime.insert key m }
      else sent.1

/-- A public `close_session`. -/
def closeSession (session : Handle) : GameRuntime × Result Unit :=
  let g := g.revokeResumeSession session
  match g.network.closeSession session .cancelled with
  | (network, .error e) => ({ g with network := network }, .error e)
  | (network, .ok ()) => (forgetReadySession { g with network := network } session, .ok ())

/-- A public `close_endpoint`. -/
def closeEndpoint (endpoint : Handle) : GameRuntime × Result Unit :=
  match g.network.closeEndpoint endpoint with
  | (network, .error e) => ({ g with network := network }, .error e)
  | (network, .ok ()) => (forgetEndpointState { g with network := network } endpoint, .ok ())

/-- Stops the runtime and clears its tables. -/
def stop : GameRuntime :=
  { g with
    network := g.network.stop
    range := g.range.clear
    heartbeatTrackers := ∅
    clockTrackers := ∅
    admission := ∅
    udpSessions := ∅
    scheduled := []
    realtime := ∅
    endpointTransports := ∅
    sessionEndpoints := ∅
    resume := { g.resume with
      tickets := g.resume.tickets.clear
      serverSessions := ∅
      pendingServer := ∅
      inflightServer := ∅
      revokedInflight := ∅
      clientEndpoints := ∅ } }

end GameRuntime

inductive Input
  | listen (transport : Transport) (protocol : GameProtocol) (opened : Result Unit)
  | connect (connection : GameRuntime.Connection)
  | authDecide (session : Handle) (accept expired : Bool)
  | issueResumeTicket (env : Env) (draws : ℕ → Option Nonce) (session : Handle) (identity : Bytes)
  | send (session : Handle) (message : Outgoing) (room : Bool)
  | sendLatest (session : Handle) (key : UInt64) (payload : Bytes) (tick : Option UInt32) (room : Bool)
  | flush (env : Env) (index : ℕ) (expired : Bool)
  | flushLatest (env : Env) (key : Handle × UInt64) (room : Bool)
  | closeSession (session : Handle)
  | closeEndpoint (endpoint : Handle)
  | stop
  | poll (capacity : ℕ)
  | advance (env : Env)
  | accept (endpoint : Handle) (peer : SocketAddr) (peerKey join : Bytes) (room : Bool)
  | join (endpoint : Handle) (peer : SocketAddr)
  | establish (session : Handle) (room : Bool)
  | deliver (session : Handle) (delivery : NetworkRuntime.Delivery) (room : Bool)
  | drop (session : Handle) (reason : ErrorCode) (joining : Bool)
  | failEndpoint (endpoint : Handle) (initialClient : Option Handle) (reason : ErrorCode)
  | announce (event : EventType) (endpoint : Handle)
  | lose (index : ℕ)

namespace GameRuntime

def withNetwork (g : GameRuntime) (f : NetworkRuntime → NetworkRuntime) : GameRuntime :=
  { g with network := f g.network }

/-- Announcements without a session. -/
def announceEndpoint (n : NetworkRuntime) (event : EventType) (endpoint : Handle) : NetworkRuntime :=
  if event = .runtimeStarted ∨ event = .endpointOpened then
    { n with shared := n.shared.publish ⟨event, endpoint, 0, 0, .ok, [], false⟩ }
  else n

/-- The staging queues are flushed at the start of a poll and by calls that take the poll lock. -/
def flushable (g : GameRuntime) : Bool :=
  match g.poll with
  | none => true
  | some p => p.stage = .flushing

/-- One step; the calls that take the poll lock wait while a poll is in progress. -/
def step (g : GameRuntime) : Input → GameRuntime
  | .listen transport protocol opened => (g.listen transport protocol opened).1
  | .connect connection => (g.connect connection).1
  | .authDecide session accept expired => (g.authDecide session accept expired).1
  | .issueResumeTicket env draws session identity =>
    (g.issueResumeTicket env draws session identity).1
  | .send session message room => (g.sendScheduled session message room).1
  | .sendLatest session key payload tick room => (g.sendLatest session key payload tick room).1
  | .flush env index expired => if g.flushable then flushScheduled env g index expired else g
  | .flushLatest env key room => if g.flushable then flushRealtime env g key room else g
  | .closeSession session => if g.poll.isSome then g else (g.closeSession session).1
  | .closeEndpoint endpoint => if g.poll.isSome then g else (g.closeEndpoint endpoint).1
  | .stop => if g.poll.isSome then g else g.stop
  | .poll capacity => if g.poll.isSome then g else g.beginPoll capacity
  | .advance env =>
    match g.poll with
    | none => g
    | some p => advance env g p
  | .accept endpoint peer peerKey join room =>
    g.withNetwork (·.accept endpoint peer peerKey join room)
  | .join endpoint peer => g.withNetwork (·.join endpoint peer)
  | .establish session room => g.withNetwork (·.establish session room)
  | .deliver session delivery room => g.withNetwork (·.deliver session delivery room)
  | .drop session reason joining => g.withNetwork (·.drop session reason joining)
  | .failEndpoint endpoint initialClient reason =>
    g.withNetwork (·.failEndpoint endpoint initialClient reason)
  | .announce event endpoint => g.withNetwork (announceEndpoint · event endpoint)
  | .lose index => g.withNetwork (·.lose index)

def machine : Machine GameRuntime Input where
  init g := ∃ config clockRoom ttl maxResumeTickets sign,
    build config clockRoom ttl maxResumeTickets sign = .ok g
  step := step

end GameRuntime

end Rnet.Game.Runtime
