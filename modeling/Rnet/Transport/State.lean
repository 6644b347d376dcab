import Rnet.Lib.FiniteMap
import Rnet.Transport.Config

/-! # Routes, queues and events shared with the application

What public calls and the datagram worker of one endpoint share: the session table, the channels of
each session (authorization decision, security commands), the worker's cleanup channel, the slots of
replaceable messages (`latestSlots` by slot, `latestKeys` the registry from session and key to slot)
and the published events. Session handles are drawn from a counter, so a handle is never used for
two sessions.

`owner` and `ticket` of an `Outbound` are not in the source: they record which session a message was
admitted for and its place in the admission order, and no function reads them. -/

namespace Rnet.Transport.State

open Rnet.Core Lib.BigEndian Lib.FiniteMap Protocol.Records Config

/-- Commands of the application to a session. -/
inductive SecurityCommand
  | setMode (mode : SecurityMode)
  | rekey
  deriving DecidableEq

/-- What an outbound message carries. -/
inductive OutboundKind
  | data | gameControl
  deriving DecidableEq

/-- A message in the write queue. -/
structure Outbound where
  bytes : Bytes
  kind : OutboundKind
  latestSlot : Option ℕ := none
  owner : Handle
  ticket : ℕ
  deriving DecidableEq

/-- Where the messages of a session go. -/
inductive SessionTarget
  | tcp
  | udp (peer : SocketAddr) (maxFrameLen : ℕ)
  | kcp (peer : SocketAddr)
  deriving DecidableEq

def SessionTarget.peer : SessionTarget → Option SocketAddr
  | tcp => none
  | udp peer _ => some peer
  | kcp peer => some peer

/-- What the runtime knows of a session. -/
structure SessionRoute where
  endpoint : Handle
  target : SessionTarget
  established : Bool
  authDecision : Bool
  securityCommands : Bool
  allowsGameControls : Bool
  deriving DecidableEq

/-- Request to release what the worker holds for a closed session. -/
structure DatagramCleanup where
  peer : SocketAddr
  session : Handle
  deriving DecidableEq

/-- State shared between public calls and the worker. -/
structure Shared where
  config : RuntimeConfig
  running : Bool
  sessions : Table Handle SessionRoute
  nextSession : Handle
  pendingHandshakes : ℕ
  authDecisions : Table Handle Bool
  commands : Table Handle (List SecurityCommand)
  latestSlots : Table ℕ Bytes
  latestKeys : List (Handle × ℕ × ℕ)
  nextSlot : ℕ
  cleanup : List DatagramCleanup
  events : List Event

namespace Shared

section

variable (s : Shared)

def initial (config : RuntimeConfig) : Shared where
  config := config
  running := true
  sessions := ∅
  nextSession := 1
  pendingHandshakes := 0
  authDecisions := ∅
  commands := ∅
  latestSlots := ∅
  latestKeys := []
  nextSlot := 0
  cleanup := []
  events := []

/-- The session has a route. -/
def sessionActive (session : Handle) : Bool := (s.sessions.lookup session).isSome

/-- Publishes an event that the queue accepts or makes room for. -/
def publish (event : Event) : Shared := { s with events := s.events ++ [event] }

/-- Asks the worker to forget an address. -/
def requestCleanup (target : SessionTarget) (session : Handle) : Shared :=
  match target.peer with
  | none => s
  | some peer => { s with cleanup := s.cleanup ++ [⟨peer, session⟩] }

/-- `close` of `session_close`: whoever removes the route releases it and publishes the close. -/
def close (session : Handle) (reason : ErrorCode) (joining : Bool) : Shared :=
  match s.sessions.lookup session with
  | none => s
  | some route =>
    let s := { s with
      sessions := s.sessions.erase session
      latestKeys := s.latestKeys.filter fun k => k.1 ≠ session
      pendingHandshakes :=
        if route.established then s.pendingHandshakes else s.pendingHandshakes - 1 }
    let s := s.requestCleanup route.target session
    let s := if joining && !route.established then
      s.publish ⟨.joinFailed, route.endpoint, session, 0, reason, [], false⟩ else s
    s.publish ⟨.sessionClosed, route.endpoint, session, 0, reason, [], false⟩

/-- Closes a session with the code of an error. -/
def removeSessionWithError (session : Handle) (error : RnetError) : Shared :=
  s.close session error.code false

/-- Closes a session. -/
def removeSessionWithReason (session : Handle) (reason : ErrorCode) : Shared :=
  s.close session reason false

/-- The session no longer counts as pending. -/
def markSessionEstablished (session : Handle) : Shared × Result Unit :=
  match s.sessions.lookup session with
  | none => (s, .error ⟨.invalidHandle, "invalid session"⟩)
  | some route =>
    ({ s with
      sessions := s.sessions.insert session { route with established := true, authDecision := false }
      pendingHandshakes :=
        if route.established then s.pendingHandshakes else s.pendingHandshakes - 1 }, .ok ())

/-- `insert_session_route`: a route that is not established yet needs a handshake reservation. -/
def insertSessionRoute (route : SessionRoute) : Shared × Result Handle :=
  if !route.established && s.config.maxPendingHandshakes ≤ s.pendingHandshakes then
    (s, .error ⟨.wouldBlock, "runtime pending-handshake limit reached"⟩)
  else
    ({ s with
      sessions := s.sessions.insert s.nextSession route
      nextSession := s.nextSession + 1
      pendingHandshakes :=
        if route.established then s.pendingHandshakes else s.pendingHandshakes + 1 },
      .ok s.nextSession)

/-- `try_push_session_event`; `room` is whether the bounded event queue has room. A full queue
closes the session the event is about. -/
def tryPushSessionEvent (room : Bool) (event : Event) : Shared × Result Unit :=
  if room then (s.publish event, .ok ())
  else
    (if event.session ≠ 0 then s.removeSessionWithReason event.session .ok else s,
      .error ⟨.wouldBlock, "event queue is full; overloaded session was closed"⟩)

/-- The session goes on at another address. -/
def retargetDatagramSession (session : Handle) (peer : SocketAddr) : Shared × Result Unit :=
  match s.sessions.lookup session with
  | none => (s, .error ⟨.invalidHandle, "invalid session"⟩)
  | some route =>
    match route.target with
    | .tcp => (s, .error ⟨.invalidState, "TCP session cannot switch a datagram address"⟩)
    | .udp _ maxFrameLen =>
      ({ s with sessions :=
          s.sessions.insert session { route with target := .udp peer maxFrameLen } }, .ok ())
    | .kcp _ =>
      ({ s with sessions := s.sessions.insert session { route with target := .kcp peer } }, .ok ())

/-- `resolve_latest`: a placeholder is exchanged for the current content of its slot. -/
def resolveLatest (outbound : Outbound) : Shared × Option Outbound :=
  match outbound.latestSlot with
  | none => (s, some outbound)
  | some slot =>
    match s.latestSlots.lookup slot with
    | none => (s, none)
    | some bytes =>
      ({ s with latestSlots := s.latestSlots.erase slot },
        some { outbound with bytes := bytes, latestSlot := none })

end

/-! ### Handles are never drawn twice -/

variable (s : Shared)

@[simp] theorem nextSession_publish (event : Event) :
    (s.publish event).nextSession = s.nextSession := rfl

theorem requestCleanup_eq (target : SessionTarget) (session : Handle) :
    s.requestCleanup target session =
      { s with cleanup := s.cleanup ++ target.peer.toList.map fun peer => ⟨peer, session⟩ } := by
  unfold requestCleanup
  split <;> rename_i h <;> rw [h]
  · rw [Option.toList_none, List.map_nil, List.append_nil]
  · rfl

@[simp] theorem nextSession_close (session : Handle) (reason : ErrorCode) (joining : Bool) :
    (s.close session reason joining).nextSession = s.nextSession := by
  unfold close
  split
  · rfl
  · split_ifs <;> simp [requestCleanup_eq]

@[simp] theorem nextSession_markSessionEstablished (session : Handle) :
    (s.markSessionEstablished session).1.nextSession = s.nextSession := by
  unfold markSessionEstablished
  split <;> rfl

@[simp] theorem nextSession_tryPushSessionEvent (room : Bool) (event : Event) :
    (s.tryPushSessionEvent room event).1.nextSession = s.nextSession := by
  unfold tryPushSessionEvent removeSessionWithReason
  split_ifs <;> simp

@[simp] theorem nextSession_retargetDatagramSession (session : Handle) (peer : SocketAddr) :
    (s.retargetDatagramSession session peer).1.nextSession =
      s.nextSession := by
  unfold retargetDatagramSession
  split
  · rfl
  · split <;> rfl

@[simp] theorem nextSession_resolveLatest (o : Outbound) :
    (s.resolveLatest o).1.nextSession = s.nextSession := by
  unfold resolveLatest
  split
  · rfl
  · split <;> rfl

theorem kept_resolveLatest (o : Outbound) :
    (s.resolveLatest o).1.config = s.config ∧ (s.resolveLatest o).1.sessions = s.sessions := by
  unfold resolveLatest
  split
  · exact ⟨rfl, rfl⟩
  · split <;> exact ⟨rfl, rfl⟩

/-- What closing a session leaves. -/
structure Closed (s : Shared) (session : Handle) (route : SessionRoute) (s' : Shared) : Prop where
  config : s'.config = s.config
  sessions : s'.sessions = s.sessions.erase session
  latestSlots : s'.latestSlots = s.latestSlots
  cleanup : s'.cleanup = s.cleanup ++ route.target.peer.toList.map fun peer => ⟨peer, session⟩

theorem close_cases (session : Handle) (reason : ErrorCode) (joining : Bool) :
    (s.sessions.lookup session = none ∧ s.close session reason joining = s) ∨
      ∃ route, s.sessions.lookup session = some route ∧
        Closed s session route (s.close session reason joining) := by
  unfold close
  split <;> rename_i hr
  · exact .inl ⟨hr, rfl⟩
  rename_i route
  refine .inr ⟨route, hr, ?_⟩
  extract_lets s₁ s₂ s₃
  have h₂ : Closed s session route s₂ := by
    simp only [s₂, requestCleanup_eq]
    exact ⟨rfl, rfl, rfl, rfl⟩
  have h₃ : Closed s session route s₃ := by
    change Closed s session route (if joining && !route.established then _ else s₂)
    split_ifs
    · exact ⟨h₂.config, h₂.sessions, h₂.latestSlots, h₂.cleanup⟩
    · exact h₂
  exact ⟨h₃.config, h₃.sessions, h₃.latestSlots, h₃.cleanup⟩

theorem lookup_close (session : Handle) (reason : ErrorCode) (joining : Bool) :
    (s.close session reason joining).sessions.lookup session = none := by
  rcases close_cases s session reason joining with ⟨hn, he⟩ | ⟨route, -, hc⟩
  · rw [he]
    exact hn
  · rw [hc.sessions]
    exact AList.lookup_erase _ _

theorem insertSessionRoute_cases (route : SessionRoute) :
    (∃ e, s.insertSessionRoute route = (s, .error e)) ∨
      ∃ s', s.insertSessionRoute route = (s', .ok s.nextSession) ∧
        s'.nextSession = s.nextSession + 1 := by
  unfold insertSessionRoute
  split_ifs
  · exact .inl ⟨_, rfl⟩
  · exact .inr ⟨_, rfl, rfl⟩
  · exact .inr ⟨_, rfl, rfl⟩

end Shared

end Rnet.Transport.State
