import Rnet.Game.Workers

/-! # What converting an event can do

Most conversions only pass an event on, refuse it or end something, which is cleanup. The others are
the steps of a session's life: its candidate is registered, it is opened, its client starts to wait,
the choice of the server is accepted, the negotiation is completed, and its data is kept back or
passed on. `Converts` lists them, with the tables they write and the conditions they are taken
under, and `Publishes` lists how a completed negotiation ends. Everything about whole runs goes
through the two lists. -/

namespace Rnet.Game.Conversion

open Rnet.Core Lib.BigEndian Lib.FiniteMap
open Transport.Sending (exceedsTarget)
open Envelope (ControlKind DecodedEnvelope encodeControl decode protocolError)
open Join Controls Event RangeState Resume Network Game.Runtime Game.Runtime.GameRuntime Cleanup Workers

/-! ### Sending a control -/

/-- The runtime takes sends and the session is established. -/
def Live (n : NetworkRuntime) (session : Handle) : Prop :=
  n.shared.running = true ∧
    ∃ route, n.shared.sessions.lookup session = some route ∧ route.established = true

variable {session : Handle}

theorem live_of_validate (h : n.validatePayloadLen session len = .ok ()) : Live n session := by
  unfold NetworkRuntime.validatePayloadLen at h
  split_ifs at h with hru
  split at h
  · cases h
  rename_i route hr
  split_ifs at h with he
  exact ⟨by simpa using hru, route, hr, by simpa using he⟩

def logControl (g : GameRuntime) (session : Handle) (envelope : Bytes) : GameRuntime :=
  { g with network := { g.network with controls := g.network.controls ++ [(session, envelope)] } }

/-- An attempt to send a control: it is refused, or encoded and admitted. -/
inductive Sent (kind : ControlKind) (session : Handle) (payload : Bytes) (g : GameRuntime) :
    GameRuntime → Result Unit → Prop
  | refused (e : RnetError) : Sent kind session payload g g (.error e)
  | admitted {envelope : Bytes}
      (hencoded : encodeControl kind payload g.maximumEnvelopeLen = .ok envelope)
      (hlive : Live g.network session) :
      Sent kind session payload g (logControl g session envelope) (.ok ())

variable {kind : ControlKind} {payload : Bytes} {g g' : GameRuntime}

theorem Sent.same (h : Sent kind session payload g g' (.error e)) : g' = g := by
  cases h
  rfl

theorem Sent.core (h : Sent kind session payload g g' r) :
    g' = { g with network := { g.network with controls := g'.network.controls } } := by
  cases h <;> rfl

theorem Sent.range (h : Sent kind session payload g g' r) : g'.range = g.range := by
  cases h <;> rfl

theorem sendGameControl_cases (n : NetworkRuntime) (channel : Channel) (session : Handle)
    (payload : Bytes) :
    (∃ e, n.sendGameControl channel session payload = (n, .error e)) ∨
      Live n session ∧ n.sendGameControl channel session payload =
        ({ n with controls := n.controls ++ [(session, payload)] }, .ok ()) := by
  unfold NetworkRuntime.sendGameControl
  split
  · exact .inl ⟨_, rfl⟩
  rename_i bytes ho
  refine .inr ⟨?_, rfl⟩
  unfold offer at ho
  split at ho
  · cases ho
  rename_i target out hp
  unfold Transport.Sending.sendGameControl at hp
  split_ifs at hp
  obtain ⟨-, ha⟩ := Transport.Sending.admitted_of_prepare hp
  obtain ⟨route, hr, he, -⟩ := ha.route
  exact ⟨ha.running, route, hr, he⟩

theorem sent_sendControl (env : Env) (g : GameRuntime) (kind : ControlKind) (session : Handle)
    (payload : Bytes) :
    Sent kind session payload g (sendControl env g kind session payload).1
      (sendControl env g kind session payload).2 := by
  unfold sendControl
  split
  · exact .refused _
  rename_i envelope hen
  rcases sendGameControl_cases g.network (env.channel session) session envelope with
    ⟨e, he⟩ | ⟨hl, hs⟩
  · rw [he]
    exact .refused e
  · rw [hs]
    exact .admitted hen hl

/-- The controls a runtime sends besides those of the negotiation. -/
inductive Emits (g : GameRuntime) (session : Handle) : ControlKind → Bytes → Prop
  | heartbeat (packet : HeartbeatPacket) : Emits g session .heartbeat (heartbeatPayload packet)
  | clockProbe (nonce t1 : UInt64) (hclient : g.clockTrackers.lookup session = some true) :
      Emits g session .clockSync (clockPayload (.probe nonce t1))
  | clockReply (nonce t1 t2 t3 : UInt64) (hserver : g.clockTrackers.lookup session = some false) :
      Emits g session .clockSync (clockPayload (.reply nonce t1 t2 t3))
  | ticket {ticket : Bytes} {info : ServerSessionMeta} (hlength : ticket.length = ticketLen)
      (hserver : g.resume.serverSessions.lookup session = some info) :
      Emits g session .resume ticket

/-! ### Publication -/

def readyEvent (endpoint session : Handle) : Option Handle → GameEvent
  | none => .sessionReady endpoint session
  | some old => .sessionResumed endpoint old session

@[simp] theorem readies_readyEvent (endpoint session : Handle) (old : Option Handle) :
    (readyEvent endpoint session old).readies = some session := by
  cases old <;> rfl

@[simp] theorem retires_readyEvent (endpoint session : Handle) (old : Option Handle) :
    (readyEvent endpoint session old).retires = old := by
  cases old <;> rfl

@[simp] theorem messageOf_readyEvent (endpoint session : Handle) (old : Option Handle) :
    (readyEvent endpoint session old).messageOf = none := by
  cases old <;> rfl

/-- **How a completed negotiation ends**: the session is gone, or it is announced and its predecessor
goes. The third case is an error of the runtime itself. -/
inductive Publishes (g : GameRuntime) (endpoint session : Handle) (old : Option Handle)
    (serverResume : Bool) : GameRuntime → Result (Option GameEvent) → Prop
  | lost {gone : List Handle} {g' : GameRuntime} (hsheds : Sheds gone g g') (hgone : session ∈ gone) :
      Publishes g endpoint session old serverResume g' (.ok none)
  | broken (e : RnetError) (hresume : serverResume = true) (hold : old = none) :
      Publishes g endpoint session old serverResume g (.error e)
  | announced {g' : GameRuntime} (hlive : Live g.network session)
      (hclaim : serverResume = true →
        ∃ o, old = some o ∧ g.resume.inflightServer.lookup o = some session)
      (hsheds : Sheds old.toList { g with admission := g.admission.insert session () } g')
      (hretired : ∀ o ∈ old, g'.network.shared.sessions.lookup o = none) :
      Publishes g endpoint session old serverResume
        { g' with published := g'.published ++ [readyEvent endpoint session old] }
        (.ok (some (readyEvent endpoint session old)))

theorem lookup_closeSession (n : NetworkRuntime) (session : Handle) (reason : ErrorCode) :
    (n.closeSession session reason).1.shared.sessions.lookup session = none := by
  unfold NetworkRuntime.closeSession
  split_ifs with ha
  · exact Transport.State.Shared.lookup_close ..
  · exact Option.not_isSome_iff_eq_none.mp ha

variable {endpoint : Handle} {old : Option Handle} {serverResume : Bool}

theorem publishes_announce {h : GameRuntime} (hl : Live g.network session)
    (hc : serverResume = true →
      ∃ o, old = some o ∧ g.resume.inflightServer.lookup o = some session)
    (hs : Sheds [] { g with admission := g.admission.insert session () }
      { h with admission := h.admission.insert session () }) :
    Publishes g endpoint session old serverResume (h.announce endpoint session old).1
      (h.announce endpoint session old).2 := by
  rcases old with - | o
  · exact .announced hl hc hs nofun
  refine .announced hl hc
    (hs.trans (sheds_discard { h with admission := h.admission.insert session () } o .cancelled)) ?_
  rintro _ ⟨⟩
  exact lookup_closeSession _ _ _

theorem validate_drop (n : NetworkRuntime) (session : Handle) (reason : ErrorCode) (joining : Bool)
    (len : ℕ) : ∃ e, (n.drop session reason joining).validatePayloadLen session len = .error e := by
  have hg : (n.drop session reason joining).shared.sessions.lookup session = none :=
    Transport.State.Shared.lookup_close ..
  unfold NetworkRuntime.validatePayloadLen
  split_ifs
  · exact ⟨_, rfl⟩
  · exact ⟨_, rfl⟩
  · rw [hg]
    exact ⟨_, rfl⟩

theorem publishes_publishRangeReady (env : Env) (g : GameRuntime) (endpoint session : Handle)
    (old : Option Handle) (serverResume : Bool) :
    Publishes g endpoint session old serverResume
      (publishRangeReady env g endpoint session old serverResume).1
      (publishRangeReady env g endpoint session old serverResume).2 := by
  unfold publishRangeReady
  by_cases hv : env.vanishes = true
  · obtain ⟨e, he⟩ := validate_drop g.network session .ioError false 0
    simp only [if_pos hv, he]
    have hd : Sheds [] g { g with network := g.network.drop session .ioError false } :=
      .of_network rfl (closes_close _ _ _)
    exact .lost (hd.trans (sheds_forgetReadySession _ session)) (List.mem_singleton_self _)
  · simp only [if_neg hv]
    split
    · exact .lost (sheds_forgetReadySession g session) (List.mem_singleton_self _)
    rename_i hva
    have hl := live_of_validate hva
    by_cases hr : serverResume = true
    · simp only [if_pos hr]
      rcases old with - | o
      · exact .broken _ hr rfl
      dsimp only
      split_ifs with hlo
      · have hc : Sheds [] g { g with resume := { g.resume with
            revokedInflight := g.resume.revokedInflight.erase o
            inflightServer := g.resume.inflightServer.erase o } } :=
          { Sheds.refl g with forgotten := nofun, inflight := .erase _ _ }
        exact .lost (hc.trans (sheds_discard _ session .cancelled))
          (List.mem_singleton_self _)
      · simp only [not_or, not_not] at hlo
        refine publishes_announce hl (fun _ => ⟨o, rfl, hlo.2⟩) ?_
        exact { Sheds.refl { g with admission := g.admission.insert session () } with
          forgotten := nofun, inflight := .erase _ _ }
    · simp only [if_neg hr]
      exact publishes_announce hl (fun h => absurd h hr) (.refl _)

/-! ### The steps of a session's life -/

def candidate (env : Env) (event : Core.Event) (join : RangeJoinRequest) (version : UInt32) :
    RangeSession where
  endpoint := event.endpoint
  protocol := join.protocol
  nonce := join.nonce
  selected := some version
  serverHandle := event.session
  oldSession := none
  serverResume := false
  phase := .serverAwaitOpen
  deadline := env.now + negotiationTimeout
  nextRetry := env.now
  buffered := []
  bufferedBytes := 0

def withCandidate (env : Env) (g : GameRuntime) (event : Core.Event) (peerKey : Bytes)
    (join : RangeJoinRequest) (tickets : ResumeRegistry) (version : UInt32)
    (claim : Option ResumeClaim) : GameRuntime :=
  { g with
    sessionEndpoints := g.sessionEndpoints.insert event.session event.endpoint
    range := { g.range with
      sessions := g.range.sessions.insert event.session (candidate env event join version) }
    resume := { g.resume with
      tickets := tickets
      serverSessions := g.resume.serverSessions.insert event.session
        ⟨peerKey, ⟨join.protocol.protocolId, version⟩⟩
      pendingServer := claim.elim g.resume.pendingServer fun c =>
        g.resume.pendingServer.insert event.session c }
    redeemed := claim.elim g.redeemed fun _ => g.redeemed.insert event.session version }

/-- Where the version of a candidate comes from: the best common one, or that of its ticket. -/
inductive Chosen (tickets : ResumeRegistry) (client server : GameProtocol) (version : UInt32) :
    Option ResumeClaim → Prop
  | selected (h : selectVersion client server = some version) :
      Chosen tickets client server version none
  | pinned {claim : ResumeClaim} {nonce : Nonce} {entry : TicketEntry}
      (hentry : tickets.entries.lookup nonce = some entry)
      (hold : entry.oldSession = claim.oldSession) (hversion : entry.protocolVersion = version)
      (hclient : client.minVersion ≤ version ∧ version ≤ client.maxVersion)
      (hserver : server.minVersion ≤ version ∧ version ≤ server.maxVersion) :
      Chosen tickets client server version (some claim)

def withTrackers (g : GameRuntime) (event : Core.Event) (transport : Transport) : GameRuntime :=
  track { g with resume := (takeClaim g.resume event.endpoint event.session).1 } event.endpoint
    event.session transport

def openedState (env : Env) (state : RangeSession) (old : Option Handle) (serverResume : Bool) :
    RangeSession :=
  { state with
    phase := .serverAwaitAck
    oldSession := old
    serverResume := serverResume
    deadline := env.now + negotiationTimeout
    nextRetry := env.now + retryInterval }

def joinedState (env : Env) (endpoint : Handle) (pending : ClientPending) (old : Option Handle) :
    RangeSession where
  endpoint := endpoint
  protocol := pending.protocol
  nonce := pending.nonce
  selected := none
  serverHandle := 0
  oldSession := old
  serverResume := false
  phase := .clientAwaitSelect
  deadline := env.now + negotiationTimeout
  nextRetry := env.now + retryInterval
  buffered := []
  bufferedBytes := 0

def selectedState (env : Env) (state : RangeSession) (control : Selection) : RangeSession :=
  { state with
    selected := some control.version
    serverHandle := control.serverHandle
    phase := .clientAwaitReady
    nextRetry := env.now + retryInterval }

/-- The runtime when a negotiation completes: early data follows into the backlog. -/
def completedState (g : GameRuntime) (session : Handle) (state : RangeSession) (phase : Phase) :
    GameRuntime :=
  { g.setSession session { state with phase := phase } with
    range := (g.setSession session { state with phase := phase }).range.completeBuffered session }

theorem lookup_completedState (g : GameRuntime) (session : Handle) (state : RangeSession)
    (phase : Phase)
    (other : Handle) : (completedState g session state phase).range.sessions.lookup other =
      if other = session then some { state with phase := phase, bufferedBytes := 0, buffered := [] }
      else g.range.sessions.lookup other := by
  have hf : (g.setSession session { state with phase := phase }).range.sessions.lookup session =
      some { state with phase := phase } := AList.lookup_insert _
  change (RangeRuntimeState.completeBuffered _ session).sessions.lookup other = _
  unfold RangeRuntimeState.completeBuffered
  rw [hf]
  change ((g.range.sessions.insert session _).insert session _).lookup other = _
  rw [lookup_insert_ite, lookup_insert_ite]
  split_ifs <;> rfl

theorem backlog_completedState (g : GameRuntime) (session : Handle) (state : RangeSession)
    (phase : Phase) : (completedState g session state phase).range.backlog =
      g.range.backlog ++ state.buffered.map GameEvent.message := by
  have hf : (g.setSession session { state with phase := phase }).range.sessions.lookup session =
      some { state with phase := phase } := AList.lookup_insert _
  change (RangeRuntimeState.completeBuffered _ session).backlog = _
  unfold RangeRuntimeState.completeBuffered
  rw [hf]
  change (g.range.completed ++ _).map _ = _
  rw [List.map_append, List.map_map]
  rfl

/-- A negotiation control that belongs to a session and is in time. -/
structure Accepted (env : Env) (g : GameRuntime) (event : Core.Event) (state : RangeSession)
    (control : Selection) : Prop where
  type : event.eventType = .gameControl
  decoded : ∃ payload, decode event.data g.maximumEnvelopeLen = .ok (.control .protocol payload) ∧
    payload.length = controlLen ∧ control = readSelection payload
  found : g.range.sessions.lookup event.session = some state
  endpoint : state.endpoint = event.endpoint
  nonce : state.nonce = control.nonce
  protocolId : state.protocol.protocolId = control.protocolId
  version : control.version ≠ 0
  serverHandle : control.serverHandle ≠ 0
  timely : env.now < state.deadline ∨ state.phase.isReady = true

/-- A choice of the server that a client can accept. -/
structure Acceptable (state : RangeSession) (control : Selection) : Prop where
  phase : state.phase = .clientAwaitSelect ∨ state.phase = .clientAwaitReady
  operation : control.operation = select
  range : state.protocol.minVersion ≤ control.version ∧ control.version ≤ state.protocol.maxVersion
  selected : state.selected = none ∨ state.selected = some control.version
  serverHandle : state.serverHandle = 0 ∨ state.serverHandle = control.serverHandle

/-- Nothing that concerns readiness becomes public. -/
def Plain (r : Result (Option GameEvent)) : Prop :=
  ∀ e, r = .ok (some e) → e.readies = none ∧ e.messageOf = none ∧ e.retires = none

theorem Plain.error (e : RnetError) : Plain (.error e) := nofun

theorem Plain.none : Plain (.ok none) := nofun

/-- **What converting an event does.** -/
inductive Converts (env : Env) (g : GameRuntime) (event : Core.Event) :
    GameRuntime → Result (Option GameEvent) → Prop
  /-- Nothing is added. -/
  | shed {gone : List Handle} {g' : GameRuntime} {r : Result (Option GameEvent)}
      (hsheds : Sheds gone g g') (hplain : Plain r)
      (hclosed : event.eventType = .sessionClosed → event.session ∈ gone) :
      Converts env g event g' r
  | rejected {tickets : ResumeRegistry} (htype : event.eventType = .authRequest)
      (htickets : ResumeRegistry.Loses g.resume.tickets tickets) :
      Converts env g event
        { g with
          resume := { g.resume with tickets := tickets }
          network := (g.network.authDecide event.session false env.decisionExpired).1 }
        (.ok (some (.protocolRejected event.endpoint event.session .protocolError)))
  | registered {join : RangeJoinRequest} {protocol : GameProtocol} {tickets : ResumeRegistry}
      {version : UInt32} {claim : Option ResumeClaim} {e : GameEvent}
      (htype : event.eventType = .authRequest)
      (hjoin : decodeRange (event.data.drop 32) = .ok join)
      (hserver : g.range.serverEndpoints.lookup event.endpoint = some protocol)
      (htickets : ResumeRegistry.Loses g.resume.tickets tickets)
      (hchosen : Chosen g.resume.tickets join.protocol protocol version claim)
      (hplain : Plain (.ok (some e))) :
      Converts env g event
        (withCandidate env g event (event.data.take 32) join tickets version claim) (.ok (some e))
  /-- A session is opened that no negotiation waits for. -/
  | unexpected {transport : Transport} (e : RnetError) (htype : event.eventType = .sessionOpened)
      (htransport : g.endpointTransports.lookup event.endpoint = some transport)
      (hlive : Live g.network event.session)
      (hnone : (∃ state, g.range.sessions.lookup event.session = some state ∧
          state.phase ≠ .serverAwaitOpen) ∨
        g.range.sessions.lookup event.session = none ∧
          g.range.clientEndpoints.lookup event.endpoint = none) :
      Converts env g event (withTrackers g event transport) (.error e)
  | opened {transport : Transport} {state : RangeSession} {g' : GameRuntime} {sent : Result Unit}
      (htype : event.eventType = .sessionOpened)
      (htransport : g.endpointTransports.lookup event.endpoint = some transport)
      (hlive : Live g.network event.session)
      (hstate : g.range.sessions.lookup event.session = some state)
      (hphase : state.phase = .serverAwaitOpen)
      (hsent : Sent .protocol event.session (selectionPayload ((openedState env state
          (takeClaim g.resume event.endpoint event.session).2.1
          (takeClaim g.resume event.endpoint event.session).2.2).control select))
        ((withTrackers g event transport).setSession event.session (openedState env state
          (takeClaim g.resume event.endpoint event.session).2.1
          (takeClaim g.resume event.endpoint event.session).2.2)) g' sent) :
      Converts env g event g' ((tolerate sent).map fun _ => none)
  | joined {transport : Transport} {pending : ClientPending}
      (htype : event.eventType = .sessionOpened)
      (htransport : g.endpointTransports.lookup event.endpoint = some transport)
      (hlive : Live g.network event.session)
      (hnone : g.range.sessions.lookup event.session = none)
      (hpending : g.range.clientEndpoints.lookup event.endpoint = some pending) :
      Converts env g event
        { (withTrackers g event transport).setSession event.session (joinedState env event.endpoint
            pending (takeClaim g.resume event.endpoint event.session).2.1) with
          range := { ((withTrackers g event transport).setSession event.session
              (joinedState env event.endpoint pending
                (takeClaim g.resume event.endpoint event.session).2.1)).range with
            clientEndpoints := g.range.clientEndpoints.erase event.endpoint } }
        (.ok none)
  /-- A probe is answered. -/
  | answered {kind : ControlKind} {payload : Bytes} {g' : GameRuntime} {sent : Result Unit}
      (htype : event.eventType = .gameControl) (hemits : Emits g event.session kind payload)
      (hsent : Sent kind event.session payload g g' sent) : Converts env g event g' (.ok none)
  | selected {state : RangeSession} {control : Selection} {g' : GameRuntime} {sent : Result Unit}
      (haccepted : Accepted env g event state control) (hcontrol : Acceptable state control)
      (hsent : Sent .protocol event.session
        (selectionPayload ((selectedState env state control).control Controls.ack))
        (g.setSession event.session (selectedState env state control)) g' sent) :
      Converts env g event g' ((tolerate sent).map fun _ => none)
  /-- A lost confirmation is repeated. -/
  | confirmed {state : RangeSession} {control : Selection} {g' : GameRuntime}
      (haccepted : Accepted env g event state control) (hphase : state.phase = .serverReady)
      (hsent : Sent .protocol event.session (selectionPayload (state.control ready)) g g' (.ok ())) :
      Converts env g event g' (.ok none)
  | serverCompleted {state : RangeSession} {control : Selection} {g₁ g' : GameRuntime}
      {r : Result (Option GameEvent)} (haccepted : Accepted env g event state control)
      (hphase : state.phase = .serverAwaitAck) (hoperation : control.operation = Controls.ack)
      (hselected : state.selected = some control.version)
      (hhandle : state.serverHandle = control.serverHandle)
      (hsent : Sent .protocol event.session (selectionPayload (state.control ready)) g g₁ (.ok ()))
      (hpublishes : Publishes (completedState g₁ event.session state .serverReady) event.endpoint
        event.session state.oldSession state.serverResume g' r) :
      Converts env g event g' r
  | clientCompleted {state : RangeSession} {control : Selection} {g' : GameRuntime}
      {r : Result (Option GameEvent)} (haccepted : Accepted env g event state control)
      (hphase : state.phase = .clientAwaitReady) (hoperation : control.operation = ready)
      (hselected : state.selected = some control.version)
      (hhandle : state.serverHandle = control.serverHandle)
      (hpublishes : Publishes (completedState g event.session state .clientReady) event.endpoint
        event.session state.oldSession false g' r) :
      Converts env g event g' r
  | buffered {message : GameMessage} {state : RangeSession} {messages bytes : ℕ}
      (htype : event.eventType = .message) (hmessage : message.session = event.session)
      (hstate : g.range.sessions.lookup event.session = some state)
      (hphase : state.phase.isReady = false) :
      Converts env g event
        { g with range := { g.range with
          bufferedMessages := messages
          bufferedBytes := bytes
          sessions := g.range.sessions.insert event.session { state with
            bufferedBytes := state.bufferedBytes + message.payload.length
            buffered := state.buffered ++ [message] } } } (.ok none)
  | passed {message : GameMessage} (htype : event.eventType = .message)
      (hmessage : message.session = event.session)
      (hready : ∀ state, g.range.sessions.lookup event.session = some state →
        state.phase.isReady = true) :
      Converts env g event g (.ok (some (.message message)))

theorem Sent.poll (h : Sent kind session payload g g' r) : g'.poll = g.poll := by
  cases h <;> rfl

theorem Publishes.poll (h : Publishes g endpoint session old serverResume g' r) :
    g'.poll = g.poll := by
  cases h with
  | lost hs => exact hs.poll
  | broken => rfl
  | announced _ _ hs => exact hs.poll

theorem Converts.poll (h : Converts env g event g' r) : g'.poll = g.poll := by
  cases h with
  | shed hsh => exact hsh.poll
  | rejected | registered | unexpected => rfl
  | opened _ _ _ _ _ hs => exact hs.poll
  | joined => rfl
  | answered _ _ hs | selected _ _ hs | confirmed _ _ hs => exact hs.poll
  | serverCompleted _ _ _ _ _ hs hp => exact hp.poll.trans hs.poll
  | clientCompleted _ _ _ _ _ hp => exact hp.poll
  | buffered | passed => rfl

section Cases

variable (env : Env) (g : GameRuntime) (event : Core.Event)

theorem converts_same (hp : Plain r) (ht : event.eventType ≠ .sessionClosed) :
    Converts env g event g r :=
  .shed (.refl g) hp fun h => absurd h ht

section Controls

variable {env g event} {state : RangeSession} {control : Selection}
  (ha : Accepted env g event state control)
include ha

theorem Accepted.ne_closed : event.eventType ≠ .sessionClosed := by
  rw [ha.type]
  decide

theorem Accepted.fails (e : RnetError) : Converts env g event g (.error e) :=
  converts_same env g event (.error e) ha.ne_closed

theorem converts_acceptSelect (ho : control.operation = select)
    (hp : state.phase = .clientAwaitSelect ∨ state.phase = .clientAwaitReady) :
    Converts env g event (acceptSelect env g event.session state control).1
      (acceptSelect env g event.session state control).2 := by
  unfold acceptSelect
  split_ifs with hb
  · exact ha.fails _
  simp only [not_or, not_and, not_not, UInt32.not_lt] at hb
  have hc : Acceptable state control := by
    refine ⟨hp, ho, ⟨hb.1, hb.2.1⟩, ?_, ?_⟩
    · rcases hsel : state.selected with - | v
      · exact .inl rfl
      · exact .inr (hsel ▸ hb.2.2.1 (by rw [hsel]; rfl))
    · by_cases hz : state.serverHandle = 0
      · exact .inl hz
      · exact .inr (hb.2.2.2 hz)
  exact .selected ha hc (sent_sendControl _ _ _ _ _)

theorem converts_acceptAck (ho : control.operation = Controls.ack)
    (hp : state.phase = .serverAwaitAck ∨ state.phase = .serverReady) :
    Converts env g event (acceptAck env g event.endpoint event.session state control).1
      (acceptAck env g event.endpoint event.session state control).2 := by
  unfold acceptAck
  by_cases hb : state.selected ≠ some control.version ∨ state.serverHandle ≠ control.serverHandle
  · rw [if_pos hb]
    exact ha.fails _
  rw [if_neg hb]
  simp only [not_or, not_not] at hb
  have hse := sent_sendControl env g .protocol event.session
    (selectionPayload (state.control ready))
  unfold sendRangeControl
  rcases hre : (sendControl env g .protocol event.session
    (selectionPayload (state.control ready))) with ⟨g₁, e | ⟨⟩⟩
  · rw [hre] at hse
    dsimp only at hse ⊢
    rw [hse.same]
    refine converts_same env g event ?_ ha.ne_closed
    split_ifs
    · exact .none
    · exact .error _
  · rw [hre] at hse
    dsimp only
    by_cases hr : state.phase = .serverReady
    · rw [if_pos hr]
      exact .confirmed ha hr hse
    rw [if_neg hr]
    exact .serverCompleted ha (hp.resolve_right hr) ho hb.1 hb.2 hse
      (publishes_publishRangeReady _ _ _ _ _ _)

theorem converts_acceptReady (ho : control.operation = ready)
    (hp : state.phase = .clientAwaitReady) :
    Converts env g event (acceptReady env g event.endpoint event.session state control).1
      (acceptReady env g event.endpoint event.session state control).2 := by
  unfold acceptReady
  split_ifs with hb
  · exact ha.fails _
  simp only [not_or, not_not] at hb
  exact .clientCompleted ha hp ho hb.1 hb.2 (publishes_publishRangeReady _ _ _ _ _ _)

theorem converts_negotiate :
    Converts env g event (negotiate env g event.endpoint event.session state control).1
      (negotiate env g event.endpoint event.session state control).2 := by
  unfold negotiate
  dsimp only
  split
  · split_ifs with ho
    · exact converts_acceptSelect ha ho (.inl ‹_›)
    · exact ha.fails _
  · split_ifs with ho ho'
    · exact converts_acceptSelect ha ho (.inr ‹_›)
    · exact converts_acceptReady ha ho' ‹_›
    · exact ha.fails _
  · split_ifs
    · exact converts_same env g event .none ha.ne_closed
    · exact ha.fails _
  · split_ifs with ho
    · exact converts_acceptAck ha ho (.inl ‹_›)
    · exact ha.fails _
  · split_ifs with ho
    · exact converts_acceptAck ha ho (.inr ‹_›)
    · exact ha.fails _
  · exact ha.fails _

end Controls

theorem converts_handleRangeControl (ht : event.eventType = .gameControl)
    (hd : decode event.data g.maximumEnvelopeLen = .ok (.control .protocol payload)) :
    Converts env g event (handleRangeControl env g event payload).1 (handleRangeControl env g event
      payload).2 := by
  have ho : event.eventType ≠ .sessionClosed := by rw [ht]; decide
  have hs : ∀ e, Converts env g event g (.error e) :=
    fun e => converts_same env g event (.error e) ho
  unfold handleRangeControl
  by_cases hle : payload.length = controlLen
  · rw [if_neg (not_not.mpr hle)]
    split
    · exact hs _
    rename_i state hst
    by_cases hb : state.endpoint ≠ event.endpoint ∨ state.nonce ≠ (readSelection payload).nonce ∨
        state.protocol.protocolId ≠ (readSelection payload).protocolId ∨
        (readSelection payload).version = 0 ∨ (readSelection payload).serverHandle = 0
    · rw [if_pos hb]
      exact hs _
    rw [if_neg hb]
    by_cases hl : state.deadline ≤ env.now ∧ state.phase.isReady = false
    · rw [if_pos hl]
      exact hs _
    rw [if_neg hl]
    simp only [not_or, not_not] at hb
    simp only [not_and_or, Nat.not_le, Bool.not_eq_false] at hl
    exact converts_negotiate ⟨ht, ⟨payload, hd, hle, rfl⟩, hst, hb.1,
      hb.2.1, hb.2.2.1, hb.2.2.2.1, hb.2.2.2.2, hl⟩
  · rw [if_pos hle]
    exact hs _

theorem converts_handleGameControlEvent (ht : event.eventType = .gameControl) :
    Converts env g event (handleGameControlEvent env g event).1
      (handleGameControlEvent env g event).2 := by
  have ho : event.eventType ≠ .sessionClosed := by rw [ht]; decide
  have hs : ∀ r, Plain r → Converts env g event g r :=
    fun r hr => converts_same env g event hr ho
  unfold handleGameControlEvent
  split
  · exact hs _ (.error _)
  · unfold handleHeartbeatEvent
    split
    · exact hs _ (.error _)
    by_cases htr : (g.heartbeatTrackers.lookup event.session).isNone = true
    · rw [if_pos htr]
      exact hs _ .none
    rw [if_neg htr]
    split
    · by_cases hre : (!env.probeAdmitted) = true
      · rw [if_pos hre]
        exact hs _ .none
      rw [if_neg hre]
      split
      · exact hs _ (.error _)
      · exact .answered ht (.heartbeat _) (sent_sendControl _ _ _ _ _)
    · refine hs _ fun e he => ?_
      split_ifs at he
      · cases he
        exact ⟨rfl, rfl, rfl⟩
      · cases he
  · unfold handleClockSyncEvent
    split
    · exact hs _ .none
    split
    · exact hs _ (.error _)
    split
    · exact hs _ .none
    rename_i client hc
    dsimp only
    split
    · split_ifs with hro
      · exact hs _ (.error _)
      · exact hs _ .none
      split
      · exact hs _ (.error _)
      rw [Bool.not_eq_true] at hro
      rw [hro] at hc
      exact .answered ht (.clockReply _ _ _ _ hc) (sent_sendControl _ _ _ _ _)
    · split_ifs
      · exact hs _ .none
      · exact hs _ (.error _)
  · unfold handleResumeTicket
    split_ifs
    · exact hs _ (.error _)
    split
    · exact hs _ .none
    refine hs _ fun e he => ?_
    cases he
    exact ⟨rfl, rfl, rfl⟩
  · exact converts_handleRangeControl env g event ht ‹_›
  · exact hs _ (.error _)

theorem converts_convertBusinessEvent (ht : event.eventType = .message) :
    Converts env g event (convertBusinessEvent g event).1 (convertBusinessEvent g event).2 := by
  have ho : event.eventType ≠ .sessionClosed := by rw [ht]; decide
  have hsa : ∀ r, Plain r → Converts env g event g r :=
    fun r hr => converts_same env g event hr ho
  have hse : ∀ m, decodeBusinessMessage g event = .ok m → m.session = event.session := by
    intro m hm
    unfold decodeBusinessMessage at hm
    split_ifs at hm
    split at hm
    · cases hm
    · cases hm
    split at hm
    · cases hm
    · cases hm
      rfl
  unfold convertBusinessEvent
  split
  · split_ifs
    · exact hsa _ (.error _)
    · exact hsa _ .none
  · rename_i message hd
    have hme := hse message hd
    unfold RangeRuntimeState.bufferMessage
    rw [hme]
    split
    · rename_i hn
      exact .passed ht hme fun state hs => by rw [hn] at hs; cases hs
    rename_i state hst
    by_cases hre : state.phase.isReady = true
    · rw [if_pos hre]
      exact .passed ht hme fun found hs => by
        rw [hst] at hs
        cases hs
        exact hre
    · rw [if_neg hre]
      dsimp only
      split_ifs
      · exact hsa _ (.error _)
      · exact hsa _ (.error _)
      · exact hsa _ (.error _)
      · exact hsa _ (.error _)
      · exact hsa _ (.error _)
      · exact .buffered ht hme hst (Bool.not_eq_true _ ▸ hre)

omit env g event in
theorem loses_pinnedVersion (tickets : ResumeRegistry) (ticket : Bytes) (endpoint : Handle)
    (peerKey : Bytes) (protocolId : UInt64) (now : Instant) : ResumeRegistry.Loses tickets
      (tickets.pinnedVersion ticket endpoint peerKey protocolId now).1 := by
  unfold ResumeRegistry.pinnedVersion
  dsimp only
  split
  · exact ResumeRegistry.loses_prune _ _
  · split_ifs <;> exact ResumeRegistry.loses_prune _ _

theorem redeem_cases (tickets : ResumeRegistry) (ticket : Bytes) (endpoint : Handle)
    (peerKey : Bytes) (client server : GameProtocol) (now : Instant) :
    ResumeRegistry.Loses tickets (redeem tickets ticket endpoint peerKey client server now).1 ∧
      ∀ version claim, (redeem tickets ticket endpoint peerKey client server now).2 =
        .ok (version, claim) → Chosen tickets client server version (some claim) := by
  have hp := loses_pinnedVersion tickets ticket endpoint peerKey client.protocolId now
  unfold redeem
  split
  · rename_i t e hre
    rw [hre] at hp
    exact ⟨hp, nofun⟩
  · rename_i t version hre
    rw [hre] at hp
    split_ifs with hr
    · exact ⟨hp, nofun⟩
    obtain ⟨hl, hcl⟩ :=
      ResumeRegistry.consume_cases t ticket endpoint peerKey ⟨client.protocolId, version⟩ now
    split
    · rename_i t' e hc
      rw [hc] at hl
      exact ⟨hp.trans hl, nofun⟩
    · rename_i t' claim hc
      rw [hc] at hl hcl
      refine ⟨hp.trans hl, ?_⟩
      intro version' claim' heq
      cases heq
      obtain ⟨nonce, entry, he, ho, hv⟩ := hcl claim rfl
      simp only [not_or, UInt32.not_lt] at hr
      exact .pinned (hp.entries _ _ he) ho hv ⟨hr.1, hr.2.1⟩
        ⟨hr.2.2.1, hr.2.2.2⟩

theorem registerCandidate_eq (tickets : ResumeRegistry) (peerKey : Bytes) (join : RangeJoinRequest)
    (version : UInt32) (claim : Option ResumeClaim) :
    ∃ e : GameEvent, Plain (.ok (some e)) ∧ (∀ a b c, e ≠ .protocolRejected a b c) ∧
      (registerCandidate env { g with resume := { g.resume with tickets := tickets } } event peerKey
        join version claim).2 = e ∧
      { (registerCandidate env { g with resume := { g.resume with tickets := tickets } } event peerKey
          join version claim).1 with
        sessionEndpoints := (registerCandidate env
          { g with resume := { g.resume with tickets := tickets } } event peerKey join version
          claim).1.sessionEndpoints.insert event.session event.endpoint } =
        withCandidate env g event peerKey join tickets version claim := by
  rcases claim with - | claim
  · refine ⟨_, ?_, ?_, rfl, rfl⟩
    · intro e he
      cases he
      exact ⟨rfl, rfl, rfl⟩
    · exact fun _ _ _ h => nomatch h
  · refine ⟨_, ?_, ?_, rfl, rfl⟩
    · intro e he
      cases he
      exact ⟨rfl, rfl, rfl⟩
    · exact fun _ _ _ h => nomatch h

def withOwner (converted : GameRuntime × GameEvent) : GameRuntime :=
  match converted.2 with
  | .protocolRejected _ _ _ => converted.1
  | _ => { converted.1 with
      sessionEndpoints := converted.1.sessionEndpoints.insert event.session event.endpoint }

theorem converts_rangeAuthRequest (hty : event.eventType = .authRequest) :
    Converts env g event
      (withOwner event (rangeAuthRequest env g event (event.data.take 32) (event.data.drop 32)))
      (.ok (some (rangeAuthRequest env g event (event.data.take 32) (event.data.drop 32)).2)) := by
  have hr : ∀ tickets, ResumeRegistry.Loses g.resume.tickets tickets → Converts env g event
      (withOwner event (rejectGameJoin env
        { g with resume := { g.resume with tickets := tickets } } event))
      (.ok (some (rejectGameJoin env
        { g with resume := { g.resume with tickets := tickets } } event).2)) :=
    fun tickets h => .rejected hty h
  have hre : ∀ join protocol tickets version claim,
      decodeRange (event.data.drop 32) = .ok join →
      g.range.serverEndpoints.lookup event.endpoint = some protocol →
      ResumeRegistry.Loses g.resume.tickets tickets →
      Chosen g.resume.tickets join.protocol protocol version claim → Converts env g event
      (withOwner event (registerCandidate env
        { g with resume := { g.resume with tickets := tickets } } event (event.data.take 32) join
        version claim))
      (.ok (some (registerCandidate env
        { g with resume := { g.resume with tickets := tickets } } event (event.data.take 32) join
        version claim).2)) := by
    intro join protocol tickets version claim hj hs ht hc
    obtain ⟨e, hp, hn, he, hst⟩ :=
      registerCandidate_eq env g event tickets (event.data.take 32) join version claim
    have ho : withOwner event (registerCandidate env
        { g with resume := { g.resume with tickets := tickets } } event (event.data.take 32) join
        version claim) = withCandidate env g event (event.data.take 32) join tickets version claim := by
      unfold withOwner
      rw [he]
      split
      · exact absurd rfl (hn _ _ _)
      · exact hst
    rw [ho, he]
    exact .registered hty hj hs ht hc hp
  unfold rangeAuthRequest
  split
  · exact hr _ (.refl _)
  · exact hr _ (.refl _)
  rename_i protocol join hs hj
  split
  · split
    · exact hr _ (.refl _)
    · rename_i version hv
      exact hre join protocol _ version none hj hs (.refl _) (.selected hv)
  · rename_i ticket hti
    obtain ⟨hl, hc⟩ := redeem_cases g.resume.tickets ticket event.endpoint
      (event.data.take 32) join.protocol protocol env.now
    dsimp only
    split
    · exact hr _ hl
    rename_i version claim hres
    exact hre join protocol _ version (some claim) hj hs hl
      (hc version claim hres)

theorem converts_convertAuthRequest (ht : event.eventType = .authRequest) :
    Converts env g event (convertAuthRequest env g event).1 (convertAuthRequest env g event).2 := by
  have ho : event.eventType ≠ .sessionClosed := by rw [ht]; decide
  unfold convertAuthRequest
  split_ifs
  · exact converts_same env g event (.error _) ho
  have hc := converts_rangeAuthRequest env g event ht
  unfold withOwner at hc
  dsimp only
  split
  · rename_i hr
    rw [hr] at hc
    rw [hr]
    exact hc
  · rename_i hn
    split at hc
    · rename_i he
      exact absurd he (hn _ _ _)
    · exact hc

theorem converts_convertSessionOpened (hty : event.eventType = .sessionOpened) :
    Converts env g event (convertSessionOpened env g event).1
      (convertSessionOpened env g event).2 := by
  have ho : event.eventType ≠ .sessionClosed := by rw [hty]; decide
  unfold convertSessionOpened
  split
  · exact .shed (sheds_closeRoute g event.session .cancelled) .none fun h => absurd h ho
  rename_i transport ht
  split
  · exact converts_same env g event .none ho
  rename_i hv
  have hl := live_of_validate hv
  dsimp only
  unfold startRangeSession
  split
  · rename_i state hs
    by_cases hph : state.phase = .serverAwaitOpen
    · rw [if_neg (not_not.mpr hph)]
      exact .opened hty ht hl hs hph (sent_sendControl _ _ _ _ _)
    · rw [if_pos hph]
      exact .unexpected _ hty ht hl (.inl ⟨state, hs, hph⟩)
  · rename_i hn
    split
    · rename_i hp
      exact .unexpected _ hty ht hl (.inr ⟨hn, hp⟩)
    · rename_i pending hp
      exact .joined hty ht hl hn hp

theorem sheds_joinFailed (endpoint : Handle) : Sheds [] g { g with
    resume := { g.resume with clientEndpoints := g.resume.clientEndpoints.erase endpoint }
    range := g.range.forgetFailedClientEndpoint endpoint } :=
  { Sheds.refl g with
    forgotten := nofun
    clients := .erase _ _
    resuming := .erase _ _ }

/-- **Every conversion is one of the listed ones.** -/
theorem converts_convertEvent :
    Converts env g event (convertEvent env g event).1 (convertEvent env g event).2 := by
  have hp : ∀ e : GameEvent, e.readies = none → e.messageOf = none → e.retires = none →
      Plain (.ok (some e)) := by
    intro e h₁ h₂ h₃ e' he
    cases he
    exact ⟨h₁, h₂, h₃⟩
  unfold convertEvent
  split <;> rename_i ht
  · exact converts_same env g event (hp _ rfl rfl rfl) (by rw [ht]; decide)
  · exact converts_same env g event (hp _ rfl rfl rfl) (by rw [ht]; decide)
  · obtain ⟨gone, hs⟩ := sheds_reapClosedEndpoints g
    exact .shed hs (hp _ rfl rfl rfl) fun h => by rw [ht] at h; cases h
  · exact converts_convertAuthRequest env g event ht
  · exact converts_convertSessionOpened env g event ht
  · exact .shed (sheds_forgetReadySession g event.session) (hp _ rfl rfl rfl)
      fun _ => List.mem_singleton_self _
  · exact converts_handleGameControlEvent env g event ht
  · exact converts_convertBusinessEvent env g event ht
  · exact converts_same env g event (hp _ rfl rfl rfl) (by rw [ht]; decide)
  · exact converts_same env g event (hp _ rfl rfl rfl) (by rw [ht]; decide)
  · exact .shed (sheds_joinFailed g event.endpoint) (hp _ rfl rfl rfl)
      fun h => by rw [ht] at h; cases h
  refine converts_same env g event ?_ (by rw [ht]; decide)
  rcases securityChange event with e | change
  · exact .error e
  · exact hp _ rfl rfl rfl

end Cases

end Rnet.Game.Conversion
