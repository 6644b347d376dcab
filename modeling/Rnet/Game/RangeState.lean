import Rnet.Lib.FiniteMap
import Rnet.Game.Event

/-! # Negotiation state and the public backlog

The sessions that negotiate or have negotiated a business version, their early data, and the events
that `poll` has produced but not yet returned. An event of the backlog is either charged to the public
budget or, when it is early data of a session that became ready, still to the early-data budget. The
order of the backlog is the order of the returned events, so a session's readiness is inserted in
front of its early data. -/

namespace Rnet.Game.RangeState

open Rnet.Core Lib.FiniteMap
open Envelope (protocolError)
open Join Controls Event

/-- Milliseconds between repeated controls. -/
def retryInterval : ℕ := 100
/-- Milliseconds a negotiation may take. -/
def negotiationTimeout : ℕ := 3000
/-- Early messages of one session. -/
def maxBufferedMessages : ℕ := 32
/-- Early bytes of one session. -/
def maxBufferedBytes : ℕ := 256 * 1024

/-- What a client waits to negotiate on a new endpoint. -/
structure ClientPending where
  protocol : GameProtocol
  nonce : Nonce
  deriving DecidableEq

/-- Phases of the protocol negotiation. -/
inductive Phase
  | serverAwaitOpen | serverAwaitAck | serverReady
  | clientAwaitSelect | clientAwaitReady | clientReady
  deriving DecidableEq

def Phase.isReady : Phase → Bool
  | serverReady | clientReady => true
  | _ => false

/-- Negotiation of a session. -/
structure RangeSession where
  endpoint : Handle
  protocol : GameProtocol
  nonce : Nonce
  selected : Option UInt32
  serverHandle : Handle
  oldSession : Option Handle
  serverResume : Bool
  phase : Phase
  deadline : Instant
  nextRetry : Instant
  buffered : List GameMessage
  bufferedBytes : ℕ
  deriving DecidableEq

/-- A control of this negotiation. -/
def RangeSession.control (s : RangeSession) (operation : UInt8) : Selection where
  operation := operation
  nonce := s.nonce
  protocolId := s.protocol.protocolId
  version := s.selected.getD 0
  serverHandle := s.serverHandle

/-- A retained event; early data keeps its reservation. -/
structure CompletedEvent where
  event : GameEvent
  reservedBytes : Option ℕ
  deriving DecidableEq

/-- All negotiations, with the events they complete. -/
structure RangeRuntimeState where
  serverEndpoints : Table Handle GameProtocol
  clientEndpoints : Table Handle ClientPending
  sessions : Table Handle RangeSession
  completed : List CompletedEvent
  publicMessages : ℕ
  publicBytes : ℕ
  maxBufferedMessages : ℕ
  maxBufferedBytes : ℕ
  bufferedMessages : ℕ
  bufferedBytes : ℕ

namespace RangeRuntimeState

/-- A state without negotiations. -/
def withBufferLimits (maxMessages maxBytes : ℕ) : RangeRuntimeState where
  serverEndpoints := ∅
  clientEndpoints := ∅
  sessions := ∅
  completed := []
  publicMessages := 0
  publicBytes := 0
  maxBufferedMessages := maxMessages
  maxBufferedBytes := maxBytes
  bufferedMessages := 0
  bufferedBytes := 0

/-- Drops everything but the limits. -/
def clear (r : RangeRuntimeState) : RangeRuntimeState :=
  withBufferLimits r.maxBufferedMessages r.maxBufferedBytes

/-- Forgets an endpoint. -/
def forgetEndpoint (r : RangeRuntimeState) (endpoint : Handle) : RangeRuntimeState :=
  { r with
    serverEndpoints := r.serverEndpoints.erase endpoint
    clientEndpoints := r.clientEndpoints.erase endpoint }

/-- Forgets a client that did not connect. -/
def forgetFailedClientEndpoint (r : RangeRuntimeState) (endpoint : Handle) : RangeRuntimeState :=
  { r with clientEndpoints := r.clientEndpoints.erase endpoint }

/-- Gives buffered messages and bytes back. -/
def releaseReservation (r : RangeRuntimeState) (messages bytes : ℕ) : RangeRuntimeState :=
  { r with
    bufferedMessages := r.bufferedMessages - messages
    bufferedBytes := r.bufferedBytes - bytes }

/-- Gives back what a completed event holds. -/
def releaseCompleted (r : RangeRuntimeState) (completed : CompletedEvent) : RangeRuntimeState :=
  match completed.reservedBytes with
  | some bytes => r.releaseReservation 1 bytes
  | none =>
    { r with
      publicMessages := r.publicMessages - 1
      publicBytes := r.publicBytes - completed.event.payloadBytes }

def releaseSession (r : RangeRuntimeState) (session : Handle) : RangeRuntimeState :=
  match r.sessions.lookup session with
  | none => r
  | some state =>
    { r with sessions := r.sessions.erase session }.releaseReservation state.buffered.length
      state.bufferedBytes

/-- Removes a session with its completed events. -/
def forgetSession (r : RangeRuntimeState) (session : Handle) : RangeRuntimeState :=
  let r := r.releaseSession session
  let gone := r.completed.filter fun c => c.event.belongsTo session
  let reserved := gone.filterMap CompletedEvent.reservedBytes
  let ordinary := gone.filter fun c => c.reservedBytes.isNone
  let r := { r with completed := r.completed.filter fun c => !c.event.belongsTo session }
  let r := r.releaseReservation reserved.length reserved.sum
  { r with
    publicMessages := r.publicMessages - ordinary.length
    publicBytes := r.publicBytes - (ordinary.map fun c => c.event.payloadBytes).sum }

/-- Room for public events. -/
def publicCapacity (r : RangeRuntimeState) : ℕ × ℕ :=
  (r.maxBufferedMessages - r.publicMessages, r.maxBufferedBytes - r.publicBytes)

/-- The loop of `drain_completed` over what is left of the backlog. -/
def drainLoop (capacity : ℕ) : List CompletedEvent → RangeRuntimeState → List GameEvent →
    RangeRuntimeState × List GameEvent
  | [], r, output => ({ r with completed := [] }, output)
  | c :: rest, r, output =>
    if output.length < capacity then
      drainLoop capacity rest (r.releaseCompleted c) (output ++ [c.event])
    else ({ r with completed := c :: rest }, output)

/-- Moves completed events to the output. -/
def drainCompleted (r : RangeRuntimeState) (output : List GameEvent) (capacity : ℕ) :
    RangeRuntimeState × List GameEvent :=
  drainLoop capacity r.completed r output

/-- Where a deferred event enters the backlog: readiness goes in front of the session's messages. -/
def insertion (event : GameEvent) (completed : List CompletedEvent) : Option ℕ :=
  match event.readies with
  | none => none
  | some session => completed.findIdx? fun c => c.event.messageOf == some session

def enqueue (event : GameEvent) (completed : List CompletedEvent) : List CompletedEvent :=
  match insertion event completed with
  | some index => completed.take index ++ ⟨event, none⟩ :: completed.drop index
  | none => completed ++ [⟨event, none⟩]

/-- `queue_public`: the new state, the output and whether the event was deferred. -/
def queuePublic (r : RangeRuntimeState) (event : GameEvent) (output : List GameEvent)
    (capacity : ℕ) : RangeRuntimeState × List GameEvent × Bool :=
  let deferred := capacity ≤ output.length || !r.completed.isEmpty
  let staged : RangeRuntimeState × List GameEvent :=
    if deferred then
      ({ r with
        publicMessages := r.publicMessages + 1
        publicBytes := r.publicBytes + event.payloadBytes
        completed := enqueue event r.completed }, output)
    else (r, output ++ [event])
  let drained := staged.1.drainCompleted staged.2 capacity
  (drained.1, drained.2, deferred)

/-- `buffer_message`: data of a session that still negotiates is kept back. -/
def bufferMessage (r : RangeRuntimeState) (message : GameMessage) :
    RangeRuntimeState × Result (Option GameEvent) :=
  match r.sessions.lookup message.session with
  | none => (r, .ok (some (.message message)))
  | some state =>
    if state.phase.isReady then (r, .ok (some (.message message)))
    else
      let messageBytes := message.payload.length
      if u64Max < state.bufferedBytes + messageBytes then
        (r, .error (protocolError "v4 pending message budget overflow"))
      else if RangeState.maxBufferedMessages ≤ state.buffered.length ∨
          RangeState.maxBufferedBytes < state.bufferedBytes + messageBytes then
        (r, .error (protocolError "v4 session pending-message budget exhausted"))
      else if u64Max < r.bufferedMessages + 1 then
        (r, .error (protocolError "v4 runtime pending-message count overflow"))
      else if u64Max < r.bufferedBytes + messageBytes then
        (r, .error (protocolError "v4 runtime pending-message budget overflow"))
      else if r.maxBufferedMessages < r.bufferedMessages + 1 ∨
          r.maxBufferedBytes < r.bufferedBytes + messageBytes then
        (r, .error (protocolError "v4 runtime pending-message budget exhausted"))
      else
        ({ r with
          bufferedMessages := r.bufferedMessages + 1
          bufferedBytes := r.bufferedBytes + messageBytes
          sessions := r.sessions.insert message.session { state with
            bufferedBytes := state.bufferedBytes + messageBytes
            buffered := state.buffered ++ [message] } }, .ok none)

/-- `complete_buffered`: early data follows its session's readiness into the backlog. -/
def completeBuffered (r : RangeRuntimeState) (session : Handle) : RangeRuntimeState :=
  match r.sessions.lookup session with
  | none => r
  | some state =>
    { r with
      sessions := r.sessions.insert session { state with bufferedBytes := 0, buffered := [] }
      completed := r.completed ++ state.buffered.map fun message =>
        ⟨.message message, some message.payload.length⟩ }

/-- What a session is due for. -/
inductive Due
  | nothing | expired | retry (operation : UInt8)
  deriving DecidableEq

def RangeSession.due (state : RangeSession) (now : Instant) : Due :=
  let repeated (operation : UInt8) : Due :=
    if state.deadline ≤ now then .expired
    else if state.nextRetry ≤ now then .retry operation
    else .nothing
  match state.phase with
  | .serverAwaitAck => repeated select
  | .clientAwaitReady => repeated Controls.ack
  | .clientAwaitSelect => if state.deadline ≤ now then .expired else .nothing
  | .serverAwaitOpen | .serverReady | .clientReady => .nothing

/-- The session after its work was collected. -/
def RangeSession.rescheduled (state : RangeSession) (now : Instant) : RangeSession :=
  match RangeSession.due state now with
  | .retry _ => { state with nextRetry := now + retryInterval }
  | _ => state

/-- `due_controls`: the controls to repeat and the sessions that expired. -/
def dueControls (r : RangeRuntimeState) (now : Instant) :
    RangeRuntimeState × List (Handle × Selection) × List Handle :=
  ({ r with sessions := mapValues r.sessions fun _ state => RangeSession.rescheduled state now },
    r.sessions.entries.filterMap (fun e =>
      match RangeSession.due e.2 now with
      | .retry operation => some (e.1, e.2.control operation)
      | _ => none),
    r.sessions.entries.filterMap fun e =>
      if RangeSession.due e.2 now = .expired then some e.1 else none)

/-! ### What the backlog operations keep -/

def backlog (r : RangeRuntimeState) : List GameEvent := r.completed.map CompletedEvent.event

/-- Tables of the negotiations stay. -/
structure SameTables (r r' : RangeRuntimeState) : Prop where
  serverEndpoints : r'.serverEndpoints = r.serverEndpoints
  clientEndpoints : r'.clientEndpoints = r.clientEndpoints
  sessions : r'.sessions = r.sessions

theorem SameTables.refl (r : RangeRuntimeState) : SameTables r r := ⟨rfl, rfl, rfl⟩

theorem SameTables.trans (h : SameTables r r') (h' : SameTables r' r'') : SameTables r r'' :=
  ⟨h'.serverEndpoints.trans h.serverEndpoints, h'.clientEndpoints.trans h.clientEndpoints,
    h'.sessions.trans h.sessions⟩

theorem sameTables_releaseCompleted (r : RangeRuntimeState) (c : CompletedEvent) :
    SameTables r (r.releaseCompleted c) := by
  unfold releaseCompleted
  split <;> exact ⟨rfl, rfl, rfl⟩

theorem drainLoop_spec (capacity : ℕ) : ∀ (l : List CompletedEvent) (r : RangeRuntimeState)
    (output : List GameEvent), SameTables r (drainLoop capacity l r output).1 ∧
      (drainLoop capacity l r output).2 ++ (drainLoop capacity l r output).1.backlog =
        output ++ l.map CompletedEvent.event
  | [], r, output => ⟨⟨rfl, rfl, rfl⟩, rfl⟩
  | c :: rest, r, output => by
    unfold drainLoop
    split_ifs with hr
    · obtain ⟨ht, hs⟩ :=
        drainLoop_spec capacity rest (r.releaseCompleted c) (output ++ [c.event])
      refine ⟨(sameTables_releaseCompleted r c).trans ht, hs.trans ?_⟩
      rw [List.append_assoc]
      rfl
    · exact ⟨⟨rfl, rfl, rfl⟩, rfl⟩

/-- **Draining moves events from the backlog to the output, in order.** -/
theorem drainCompleted_spec (r : RangeRuntimeState) (output : List GameEvent) (capacity : ℕ) :
    SameTables r (r.drainCompleted output capacity).1 ∧
      (r.drainCompleted output capacity).2 ++ (r.drainCompleted output capacity).1.backlog =
        output ++ r.backlog :=
  drainLoop_spec capacity r.completed r output

/-- The backlog with an event is the backlog with the event in one place, behind everything unless it
is a readiness, and a readiness stands in front of the messages of its session. -/
theorem enqueue_spec (event : GameEvent) (completed : List CompletedEvent) :
    ∃ front back, completed = front ++ back ∧
      enqueue event completed = front ++ ⟨event, none⟩ :: back ∧
      (event.readies = none → back = []) ∧
      ∀ session, event.readies = some session →
        ∀ c ∈ front, c.event.messageOf ≠ some session := by
  unfold enqueue
  rcases hi : insertion event completed with - | index
  · refine ⟨completed, [], by simp, rfl, fun _ => rfl, ?_⟩
    intro session hr c hc
    simp only [insertion, hr] at hi
    simpa using List.findIdx?_eq_none_iff.mp hi c hc
  · refine ⟨completed.take index, completed.drop index, (List.take_append_drop _ _).symm, rfl, ?_, ?_⟩
    · intro hr
      simp only [insertion, hr] at hi
      cases hi
    · intro session hr c hc
      simp only [insertion, hr] at hi
      obtain ⟨hl, -, hb⟩ := List.findIdx?_eq_some_iff_getElem.mp hi
      obtain ⟨j, hj, rfl⟩ := List.getElem_of_mem hc
      rw [List.length_take] at hj
      rw [List.getElem_take]
      simpa using hb j (by omega)

end RangeRuntimeState

end Rnet.Game.RangeState
