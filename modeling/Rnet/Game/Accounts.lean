import Rnet.Game.RangeBudget
import Rnet.Game.Handles

/-! # What the runtime does to its negotiation state

The game runtime changes its negotiation state only through a few operations: sessions are
registered, move on, keep a message back, complete or are forgotten, and the tables of endpoints
change. `RangeKeeps` asks of a property of the negotiation state that each of them keeps it; then
cleanup, maintenance, calls and the conversion of an event keep it. -/

namespace Rnet.Game.Accounts

open Rnet.Core Lib.BigEndian Lib.FiniteMap Join Controls Event RangeState Resume
open Game.Runtime Game.Runtime.GameRuntime Conversion Steps RangeBudget
open Tickets (anything)
open Handles (rescheduled_found)

/-- What the operations on the negotiation state keep. -/
structure RangeKeeps (P : RangeRuntimeState → Prop) : Prop where
  endpoints : ∀ {r} servers clients, P r →
    P { r with serverEndpoints := servers, clientEndpoints := clients }
  registered : ∀ {r session} state, P r → r.sessions.lookup session = none →
    P (registered r session state)
  edited : ∀ {r} session state, P r → P (edited r session state)
  rescheduled : ∀ {r} now, P r → P (r.dueControls now).1
  buffered : ∀ {r} message, P r → P (r.bufferMessage message).1
  completed : ∀ {r} session, P r → P (r.completeBuffered session)
  forgotten : ∀ {r} session, P r → P (r.forgetSession session)
  cleared : ∀ {r}, P r → P r.clear

variable {P : RangeRuntimeState → Prop} {g : GameRuntime}

theorem range_foldl {f : GameRuntime → α → GameRuntime} {l : List α} (hg : P g.range)
    (h : ∀ g, P g.range → ∀ a ∈ l, P (f g a).range) : P (l.foldl f g).range :=
  List.foldlRecOn (motive := fun g : GameRuntime => P g.range) l f hg h

namespace RangeKeeps

variable (h : RangeKeeps P)

include h

/-! ### Cleanup -/

theorem revokeResumeSession (session : Handle) (hg : P g.range) :
    P (g.revokeResumeSession session).range :=
  range_foldl hg fun _ hg new _ => h.forgotten new hg

theorem forgetEndpointState (endpoint : Handle) (hg : P g.range) :
    P (g.forgetEndpointState endpoint).range := by
  refine h.endpoints _ _ ?_
  exact range_foldl hg fun _ hg session _ =>
    h.forgotten session (h.revokeResumeSession session hg)

theorem reapClosedEndpoints (hg : P g.range) : P g.reapClosedEndpoints.range := by
  unfold GameRuntime.reapClosedEndpoints
  split_ifs
  · exact hg
  · exact range_foldl hg fun _ hg endpoint _ => h.forgetEndpointState endpoint hg

/-! ### Maintenance -/

omit h in
theorem range_sendControl (env : Env) (g : GameRuntime) (kind : Envelope.ControlKind)
    (session : Handle) (payload : Bytes) : (sendControl env g kind session payload).1.range = g.range :=
  (sent_sendControl env g kind session payload).range

theorem maintain (env : Env) (hg : P g.range) : P (maintain env g).range := by
  have hh : P (driveHeartbeats env g).range := by
    refine range_foldl (range_foldl hg fun g hg tick _ => ?_) fun g hg tick _ => ?_
    · unfold sendProbe
      split
      · rw [range_sendControl]
        exact hg
      · exact hg
    · unfold closeFailed
      split <;> exact hg
  have hc : P (driveClockSync env (driveHeartbeats env g)).range := by
    refine range_foldl hh fun g hg probe _ => ?_
    split_ifs
    · rw [range_sendControl]
      exact hg
    · exact hg
  refine range_foldl (range_foldl (h.rescheduled env.now hc) fun g hg retry _ => ?_)
    fun _ hg session _ => h.forgotten session hg
  unfold sendRangeControl
  rw [range_sendControl]
  exact hg

/-! ### Conversion -/

theorem setSession {session : Handle} (ho : g.range.sessions.lookup session = some old)
    (hb : state.buffered = old.buffered) (hby : state.bufferedBytes = old.bufferedBytes)
    (hg : P g.range) : P (g.setSession session state).range := by
  have he := h.edited session state hg
  unfold RangeBudget.edited at he
  rw [ho] at he
  dsimp only at he
  rw [← hb, ← hby] at he
  exact he

theorem publishRangeReady (env : Env) (endpoint session : Handle) (old : Option Handle)
    (serverResume : Bool) (hg : P g.range) :
    P (publishRangeReady env g endpoint session old serverResume).1.range := by
  have ha : ∀ (g : GameRuntime) (old : Option Handle), P g.range →
      P (g.announce endpoint session old).1.range := by
    intro g old hg
    rcases old with - | o
    · exact hg
    · exact h.forgotten o hg
  have hd : P (if env.vanishes then
      { g with network := g.network.drop session .ioError false } else g).range := by
    split_ifs <;> exact hg
  unfold GameRuntime.publishRangeReady
  dsimp only
  generalize (if env.vanishes then { g with network := g.network.drop session .ioError false }
    else g) = g at hd ⊢
  split
  · exact h.forgotten session hd
  split_ifs
  · split
    · exact hd
    split_ifs
    · exact h.forgotten session hd
    · exact ha _ _ hd
  · exact ha _ _ hd

section Controls

variable (env : Env) (endpoint : Handle) {session : Handle} {state : RangeSession}
  (hst : g.range.sessions.lookup session = some state) (control : Selection) (hg : P g.range)
include hst hg

theorem acceptSelect : P (acceptSelect env g session state control).1.range := by
  unfold GameRuntime.acceptSelect
  split_ifs
  · exact hg
  dsimp only [sendRangeControl]
  rw [range_sendControl]
  exact h.setSession hst rfl rfl hg

theorem acceptAck : P (acceptAck env g endpoint session state control).1.range := by
  unfold GameRuntime.acceptAck
  split
  · exact hg
  have hs : (sendRangeControl env g session (state.control ready)).1.range = g.range :=
    range_sendControl _ _ _ _ _
  have hf := hst
  rw [← hs] at hf
  dsimp only
  split
  · rw [hs]
    exact hg
  split_ifs
  · rw [hs]
    exact hg
  refine h.publishRangeReady _ _ _ _ _ (h.completed session
    (h.setSession hf rfl rfl ?_))
  rw [hs]
  exact hg

theorem acceptReady : P (acceptReady env g endpoint session state control).1.range := by
  unfold GameRuntime.acceptReady
  split_ifs
  · exact hg
  · exact h.publishRangeReady _ _ _ _ _ (h.completed session (h.setSession hst rfl rfl hg))

theorem negotiate : P (negotiate env g endpoint session state control).1.range := by
  have hse := h.acceptSelect env hst control hg
  have ha := h.acceptAck env endpoint hst control hg
  have hr := h.acceptReady env endpoint hst control hg
  unfold GameRuntime.negotiate
  dsimp only
  split
  · split_ifs <;> assumption
  · split_ifs <;> assumption
  · split_ifs <;> exact hg
  · split_ifs <;> assumption
  · split_ifs <;> assumption
  · exact hg

end Controls

theorem handleGameControlEvent (env : Env) (event : Core.Event) (hg : P g.range) :
    P (handleGameControlEvent env g event).1.range := by
  unfold GameRuntime.handleGameControlEvent
  split
  · exact hg
  · unfold handleHeartbeatEvent
    split
    · exact hg
    split
    · exact hg
    split
    · split
      · exact hg
      split
      · exact hg
      · rw [range_sendControl]
        exact hg
    · exact hg
  · unfold handleClockSyncEvent
    split
    · exact hg
    split
    · exact hg
    split
    · exact hg
    dsimp only
    split
    · split
      · exact hg
      split
      · exact hg
      split
      · exact hg
      · rw [range_sendControl]
        exact hg
    · split <;> exact hg
  · unfold handleResumeTicket
    split_ifs
    · exact hg
    · split <;> exact hg
  · unfold handleRangeControl
    split_ifs
    · exact hg
    dsimp only
    split
    · exact hg
    rename_i state hs
    split_ifs
    · exact hg
    · exact hg
    · exact h.negotiate env _ hs _ hg
  · exact hg

section Joins

variable (env : Env) {event : Core.Event} (hf : g.range.sessions.lookup event.session = none)
  (hg : P g.range)
include hf hg

theorem registerCandidate (peerKey : Bytes) (join : RangeJoinRequest) (version : UInt32)
    (claim : Option ResumeClaim) :
    P (registerCandidate env g event peerKey join version claim).1.range := by
  have hc := h.registered (candidate env event join version) hg hf
  rcases claim with - | claim <;> exact hc

theorem rangeAuthRequest (peerKey payload : Bytes) :
    P (rangeAuthRequest env g event peerKey payload).1.range := by
  unfold GameRuntime.rangeAuthRequest
  split
  · exact hg
  · exact hg
  split
  · split
    · exact hg
    · exact h.registerCandidate env hf hg ..
  · dsimp only
    split
    · exact hg
    · exact h.registerCandidate env (by exact hf) (by exact hg) ..

theorem convertAuthRequest : P (convertAuthRequest env g event).1.range := by
  have hra := h.rangeAuthRequest env hf hg (event.data.take 32) (event.data.drop 32)
  unfold GameRuntime.convertAuthRequest
  split_ifs
  · exact hg
  · dsimp only
    split <;> exact hra

end Joins

theorem startRangeSession (env : Env) (endpoint session : Handle) (old : Option Handle)
    (serverResume : Bool) (hg : P g.range) :
    P (startRangeSession env g endpoint session old serverResume).1.range := by
  unfold GameRuntime.startRangeSession
  split
  · rename_i state hst
    split_ifs
    · exact hg
    dsimp only [sendRangeControl]
    rw [range_sendControl]
    exact h.setSession hst rfl rfl hg
  · rename_i hn
    split
    · exact hg
    · rename_i pending _
      exact h.endpoints _ _ (h.registered (joinedState env endpoint pending old) hg hn)

theorem convertSessionOpened (env : Env) (event : Core.Event) (hg : P g.range) :
    P (convertSessionOpened env g event).1.range := by
  unfold GameRuntime.convertSessionOpened
  split
  · exact hg
  split
  · exact hg
  · exact h.startRangeSession env _ _ _ _ hg

/-- **The conversion of an event.** -/
theorem convertEvent (env : Env)
    (hf : event.eventType = .authRequest → g.range.sessions.lookup event.session = none)
    (hg : P g.range) : P (convertEvent env g event).1.range := by
  unfold GameRuntime.convertEvent
  split
  · exact hg
  · exact hg
  · exact h.reapClosedEndpoints hg
  · rename_i ht
    exact h.convertAuthRequest env (hf ht) hg
  · exact h.convertSessionOpened env event hg
  · exact h.forgotten event.session hg
  · exact h.handleGameControlEvent env event hg
  · unfold convertBusinessEvent
    split
    · exact hg
    · exact h.buffered _ hg
  · exact hg
  · exact hg
  · exact h.endpoints _ _ hg
  · exact hg

/-! ### Calls -/

/-- **Calls of the application and actions of the workers.** -/
theorem call (hca : polls input = false) (hg : P g.range) : P (GameRuntime.step g input).range := by
  cases input with
  | listen transport protocol opened =>
    simp only [GameRuntime.step]
    rcases listen_cases g transport protocol opened with hs | ⟨-, hl⟩
    · rw [hs]
      exact hg
    · rw [hl]
      exact h.endpoints _ _ hg
  | connect connection =>
    simp only [GameRuntime.step]
    rcases connect_cases g connection with hs | ⟨nonce, payload, -, hc⟩
    · rw [hs]
      exact hg
    · rw [hc]
      exact h.endpoints _ _ hg
  | authDecide session accept expired =>
    simp only [GameRuntime.step, GameRuntime.authDecide]
    split
    · exact hg
    split_ifs
    · exact hg
    · exact h.forgotten session hg
  | issueResumeTicket env draws session identity =>
    have hi := issues_issueResumeTicket g env draws session identity
    change P (g.issueResumeTicket env draws session identity).1.range
    generalize (g.issueResumeTicket env draws session identity) = result at hi ⊢
    obtain ⟨g', r⟩ := result
    cases hi with
    | refused => exact hg
    | sent _ _ _ _ _ hse =>
      rw [hse.range]
      exact hg
    | undone => exact hg
  | send session message room =>
    simp only [GameRuntime.step, sendScheduled]
    split <;> exact hg
  | sendLatest session key payload tick room =>
    simp only [GameRuntime.step, GameRuntime.sendLatest]
    split <;> exact hg
  | flush env index expired =>
    simp only [GameRuntime.step]
    split_ifs
    · rw [(flushed_flushScheduled env g index expired).core]
      exact hg
    · exact hg
  | flushLatest env key room =>
    simp only [GameRuntime.step]
    split_ifs
    · rw [(flushed_flushRealtime env g key room).core]
      exact hg
    · exact hg
  | closeSession session =>
    simp only [GameRuntime.step]
    split_ifs
    · exact hg
    have hr := h.revokeResumeSession session hg
    unfold GameRuntime.closeSession
    dsimp only
    split
    · exact hr
    · exact h.forgotten session hr
  | closeEndpoint endpoint =>
    simp only [GameRuntime.step]
    split_ifs
    · exact hg
    unfold GameRuntime.closeEndpoint
    split
    · exact hg
    · exact h.forgetEndpointState endpoint hg
  | stop =>
    simp only [GameRuntime.step]
    split_ifs
    · exact hg
    · exact h.cleared hg
  | poll capacity | advance env => cases hca
  | _ => exact hg

end RangeKeeps

theorem poll_calls (p : Option Poll) : CallKeeps anything fun g => g.poll = p where
  shed h hs := hs.poll.trans h
  sent h _ hs := hs.poll.trans h
  rescheduled _ h := h
  repeated h _ _ hs := hs.poll.trans h
  listened h _ _ := h
  connected h _ _ := h
  decided h _ := h
  issued {g env draws session identity g' r} h _ hi := by
    cases hi with
    | refused => exact h
    | sent _ _ _ _ _ hse => exact hse.poll.trans h
    | undone => exact h
  scheduled h _ _ := h
  latest h _ _ := h
  flushed h hf := by
    rw [hf.core]
    exact h
  ended h _ := h
  stopped h := h
  accepted h _ := h
  joined h _ := h
  established h _ := h
  delivered h _ := h
  announced h := h
  lost h _ := h

/-! ### The counters -/

/-- The counters are exact, with room for `slots` events of `bytes` bytes under fixed limits. -/
structure Limited (maxMessages maxBytes slots bytes : ℕ) (r : RangeRuntimeState) : Prop where
  room : Room slots bytes r
  messages : r.maxBufferedMessages = maxMessages
  bytes : r.maxBufferedBytes = maxBytes

theorem limits_forgetSession (r : RangeRuntimeState) (session : Handle) :
    (r.forgetSession session).maxBufferedMessages = r.maxBufferedMessages ∧
      (r.forgetSession session).maxBufferedBytes = r.maxBufferedBytes := by
  unfold RangeRuntimeState.forgetSession RangeRuntimeState.releaseSession
  split <;> exact ⟨rfl, rfl⟩

theorem limits_bufferMessage (r : RangeRuntimeState) (message : GameMessage) :
    (r.bufferMessage message).1.maxBufferedMessages = r.maxBufferedMessages ∧
      (r.bufferMessage message).1.maxBufferedBytes = r.maxBufferedBytes := by
  unfold RangeRuntimeState.bufferMessage
  split
  · exact ⟨rfl, rfl⟩
  · dsimp only
    split_ifs <;> exact ⟨rfl, rfl⟩

theorem limits_completeBuffered (r : RangeRuntimeState) (session : Handle) :
    (r.completeBuffered session).maxBufferedMessages = r.maxBufferedMessages ∧
      (r.completeBuffered session).maxBufferedBytes = r.maxBufferedBytes := by
  unfold RangeRuntimeState.completeBuffered
  split <;> exact ⟨rfl, rfl⟩

theorem room_endpoints (h : Room slots bytes r)
    (servers : Table Handle GameProtocol) (clients : Table Handle ClientPending) :
    Room slots bytes { r with serverEndpoints := servers, clientEndpoints := clients } :=
  { h with }

theorem room_rescheduled (h : Room slots bytes r) (now : Instant) :
    Room slots bytes (r.dueControls now).1 := by
  have hb : ∀ state : RangeSession,
      (RangeRuntimeState.RangeSession.rescheduled state now).buffered = state.buffered ∧
        (RangeRuntimeState.RangeSession.rescheduled state now).bufferedBytes =
          state.bufferedBytes := by
    intro state
    unfold RangeRuntimeState.RangeSession.rescheduled
    split <;> exact ⟨rfl, rfl⟩
  have ht : ∀ f : RangeSession → ℕ,
      (∀ state, f (RangeRuntimeState.RangeSession.rescheduled state now) = f state) →
        total (r.dueControls now).1.sessions f = total r.sessions f :=
    fun f hf => total_mapValues r.sessions _ f fun _ state => hf state
  refine { h with
    bufferedMessages := ?_, bufferedBytes := ?_, sessions := fun session found hfo => ?_ }
  · refine h.bufferedMessages.trans (congrArg (· + _) (ht _ fun state => ?_).symm)
    rw [(hb state).1]
  · refine h.bufferedBytes.trans (congrArg (· + _) (ht _ fun state => ?_).symm)
    unfold earlyBytes
    rw [(hb state).1]
  · obtain ⟨state, hs, rfl⟩ := rescheduled_found hfo
    obtain ⟨he, hm, hby⟩ := h.sessions session state hs
    refine ⟨?_, ?_, ?_⟩
    · unfold earlyBytes
      rw [(hb state).1, (hb state).2]
      exact he
    · rw [(hb state).1]
      exact hm
    · rw [(hb state).2]
      exact hby

theorem limited_keeps (maxMessages maxBytes slots bytes : ℕ) :
    RangeKeeps (Limited maxMessages maxBytes slots bytes) where
  endpoints servers clients h := ⟨room_endpoints h.room servers clients, h.messages, h.bytes⟩
  registered state h hf := ⟨h.room.registered state hf, h.messages, h.bytes⟩
  edited {r} session state h := by
    have hl : (edited r session state).maxBufferedMessages = r.maxBufferedMessages ∧
        (edited r session state).maxBufferedBytes = r.maxBufferedBytes := by
      unfold edited
      split <;> exact ⟨rfl, rfl⟩
    exact ⟨h.room.edited session state, hl.1.trans h.messages, hl.2.trans h.bytes⟩
  rescheduled now h := ⟨room_rescheduled h.room now, h.messages, h.bytes⟩
  buffered {r} message h := ⟨h.room.buffer message,
    (limits_bufferMessage r message).1.trans h.messages,
    (limits_bufferMessage r message).2.trans h.bytes⟩
  completed {r} session h := ⟨h.room.complete session,
    (limits_completeBuffered r session).1.trans h.messages,
    (limits_completeBuffered r session).2.trans h.bytes⟩
  forgotten {r} session h := ⟨(h.room.forget session).2,
    (limits_forgetSession r session).1.trans h.messages,
    (limits_forgetSession r session).2.trans h.bytes⟩
  cleared h := ⟨h.room.clear, h.messages, h.bytes⟩

end Rnet.Game.Accounts
