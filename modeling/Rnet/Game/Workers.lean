import Rnet.Game.Cleanup

/-! # What the network can do

Between two steps of the game layer, and in its calls that only concern the network, routes are
registered under new handles, become established, or go; the queue of events loses some and gets new
ones behind the rest. `Net` is that frame, with the new events as a parameter: a session is announced
to the game layer as a request for authorization when its handle is new, and as opened when its route
becomes established, so never twice. -/

namespace Rnet.Game.Workers

open Rnet.Core Lib.BigEndian Lib.FiniteMap Transport.Config Transport.State
open Transport.Session (sessionEvent)
open Network Game.Runtime Cleanup

/-- The place of an announcement in the life of a session. -/
def rank : EventType → Option ℕ
  | .authRequest => some 0
  | .sessionOpened => some 1
  | _ => none

/-- Announcements of one session come in the order of its life, each at most once. -/
def Precedes (a b : Event) : Prop :=
  a.session = b.session → ∀ i ∈ rank a.eventType, ∀ j ∈ rank b.eventType, i < j

/-- A route that goes on: it keeps its endpoint and stays established. -/
structure Continues (r r' : SessionRoute) : Prop where
  endpoint : r'.endpoint = r.endpoint
  target : r'.target = r.target
  server : r'.securityCommands = r.securityCommands
  established : r.established = true → r'.established = true

theorem Continues.refl (r : SessionRoute) : Continues r r := ⟨rfl, rfl, rfl, id⟩

theorem Continues.trans (h : Continues r r') (h' : Continues r' r'') : Continues r r'' :=
  ⟨h'.endpoint.trans h.endpoint, h'.target.trans h.target, h'.server.trans h.server,
    h'.established ∘ h.established⟩

/-- **What the network does**: `new` are the events it adds. -/
structure Net (new : List Event) (n n' : NetworkRuntime) : Prop where
  config : n'.shared.config = n.shared.config
  joins : n'.joins = n.joins
  controls : n'.controls = n.controls
  data : n'.data = n.data
  nextSession_le : n.shared.nextSession ≤ n'.shared.nextSession
  routes : ∀ session route', n'.shared.sessions.lookup session = some route' →
    (∃ route, n.shared.sessions.lookup session = some route ∧ Continues route route') ∨
      (n.shared.nextSession ≤ session ∧ session < n'.shared.nextSession ∧
        route'.established = false)
  closed : Announced n.shared n'.shared new
  events : n'.shared.events = n.shared.events ++ new

namespace Net

theorem of_sub (hco : s.config = n.shared.config)
    (hn : s.nextSession = n.shared.nextSession) (hr : Sub s.sessions n.shared.sessions)
    (hc : Announced n.shared s new) (hevents : s.events = n.shared.events ++ new) :
    Net new n { n with shared := s, endpoints := endpoints } where
  config := hco
  joins := rfl
  controls := rfl
  data := rfl
  nextSession_le := Nat.le_of_eq hn.symm
  routes := fun session route h => .inl ⟨route, hr session route h, .refl route⟩
  closed := hc
  events := hevents

theorem refl (n : NetworkRuntime) : Net [] n n :=
  .of_sub rfl rfl (.refl _) (.refl _ _) (List.append_nil _).symm

end Net

/-! ### Closing from the network side -/

def Ends (e : Event) : Prop :=
  e.eventType = .sessionClosed ∨ e.eventType = .joinFailed ∨ e.eventType = .endpointError ∨
    e.eventType = .runtimeStopped

/-- Only routes went, and only ends were announced. -/
structure Ended (s s' : Shared) : Prop where
  config : s'.config = s.config
  nextSession : s'.nextSession = s.nextSession
  routes : Sub s'.sessions s.sessions
  events : ∃ new, s'.events = s.events ++ new ∧ (∀ e ∈ new, Ends e) ∧ Announced s s' new

namespace Ended

theorem refl (s : Shared) : Ended s s := ⟨rfl, rfl, .refl _, [], by simp, nofun, .refl s _⟩

theorem trans (h : Ended s s') (h' : Ended s' s'') : Ended s s'' := by
  obtain ⟨l, hl, hen, ha⟩ := h.events
  obtain ⟨l', hl', he', ha'⟩ := h'.events
  refine ⟨h'.config.trans h.config, h'.nextSession.trans h.nextSession, h'.routes.trans h.routes,
    l ++ l', ?_, ?_, ha.trans ha'⟩
  · rw [hl', hl, List.append_assoc]
  · intro e he
    exact (List.mem_append.mp he).elim (hen e) (he' e)

theorem publish (s : Shared) (he : Ends e) : Ended s (s.publish e) :=
  ⟨rfl, rfl, .refl _, [e], rfl, List.forall_mem_singleton.mpr he, .refl _ _⟩

theorem net (h : Ended n.shared s)
    (endpoints : Table Handle NativeEndpoint) :
    ∃ new, Net new n { n with shared := s, endpoints := endpoints } ∧ ∀ e ∈ new, Ends e := by
  obtain ⟨new, hevents, he, ha⟩ := h.events
  exact ⟨new, .of_sub h.config h.nextSession h.routes ha hevents, he⟩

end Ended

theorem ended_erase {s t : Shared} {session endpoint : Handle} {reason : ErrorCode}
    {before : List Event} (hc : t.config = s.config) (hn : t.nextSession = s.nextSession)
    (hs : t.sessions = s.sessions.erase session) (hevents : t.events = s.events ++ before)
    (hb : ∀ e ∈ before, Ends e) :
    Ended s (t.publish ⟨.sessionClosed, endpoint, session, 0, reason, [], false⟩) := by
  refine ⟨hc, hn, ?_,
    before ++ [⟨.sessionClosed, endpoint, session, 0, reason, [], false⟩], ?_, ?_,
    announced_erase hs (List.mem_append_right _ (List.mem_singleton_self _)) rfl rfl⟩
  · change Sub t.sessions s.sessions
    rw [hs]
    exact .erase _ _
  · change t.events ++ [_] = _
    rw [hevents, List.append_assoc]
  intro e he
  rcases List.mem_append.mp he with he | he
  · exact hb e he
  · rw [List.mem_singleton.mp he]
    exact .inl rfl

theorem ended_close (s : Shared) (session : Handle) (reason : ErrorCode) (joining : Bool) :
    Ended s (s.close session reason joining) := by
  unfold Shared.close
  split
  · exact .refl s
  rename_i route hr
  simp only [Shared.requestCleanup_eq]
  by_cases hj : (joining && !route.established) = true
  · rw [if_pos hj]
    exact ended_erase rfl rfl rfl rfl (List.forall_mem_singleton.mpr (.inr (.inl rfl)))
  · rw [if_neg hj]
    exact ended_erase rfl rfl rfl (List.append_nil _).symm nofun

theorem ended_retire (s : Shared) (session : Handle) :
    Ended s (NetworkRuntime.retire s session) := by
  unfold NetworkRuntime.retire
  split
  · exact .refl s
  · exact ended_erase rfl rfl rfl (List.append_nil _).symm nofun

theorem ended_closeEndpointSessions (s : Shared) (endpoint : Handle) :
    Ended s (NetworkRuntime.closeEndpointSessions s endpoint) :=
  List.foldlRecOn _ _ (.refl s) fun t h session _ => h.trans (ended_retire t session)

def NetEnds (n n' : NetworkRuntime) : Prop := ∃ new, Net new n n' ∧ ∀ e ∈ new, Ends e

theorem netEnds_refl (n : NetworkRuntime) : NetEnds n n := ⟨[], .refl n, nofun⟩

theorem netEnds_drop (n : NetworkRuntime) (session : Handle) (reason : ErrorCode) (joining : Bool) :
    NetEnds n (n.drop session reason joining) :=
  (ended_close n.shared session reason joining).net n.endpoints

theorem netEnds_failEndpoint (n : NetworkRuntime) (endpoint : Handle) (initialClient : Option Handle)
    (reason : ErrorCode) : NetEnds n (n.failEndpoint endpoint initialClient reason) := by
  unfold NetworkRuntime.failEndpoint
  split
  · exact netEnds_refl n
  exact (List.foldlRecOn (motive := Ended n.shared) _ _ (.publish _ (.inr (.inr (.inl rfl))))
    fun s h session _ => h.trans (ended_close s session reason _)).net _

theorem netEnds_closeEndpoint (n : NetworkRuntime) (endpoint : Handle) :
    NetEnds n (n.closeEndpoint endpoint).1 := by
  unfold NetworkRuntime.closeEndpoint
  split
  · exact netEnds_refl n
  · exact (ended_closeEndpointSessions n.shared endpoint).net _

structure EndpointsClosed (n n' : NetworkRuntime) : Prop where
  joins : n'.joins = n.joins
  controls : n'.controls = n.controls
  data : n'.data = n.data
  shared : Ended n.shared n'.shared

theorem endpointsClosed_foldl (l : List Handle) (n : NetworkRuntime) :
    EndpointsClosed n (l.foldl (fun n e => (n.closeEndpoint e).1) n) := by
  refine List.foldlRecOn l _ ⟨rfl, rfl, rfl, .refl _⟩ fun m h e _ => ?_
  unfold NetworkRuntime.closeEndpoint
  split
  · exact h
  · exact ⟨h.joins, h.controls, h.data, h.shared.trans (ended_closeEndpointSessions m.shared e)⟩

theorem netEnds_stop (n : NetworkRuntime) : NetEnds n n.stop := by
  have hc := endpointsClosed_foldl (n.endpoints.entries.map Sigma.fst)
    { n with shared := { n.shared with running := false } }
  have he : EndpointsClosed { n with shared := { n.shared with running := false } } n.stop := by
    unfold NetworkRuntime.stop
    split_ifs
    · exact ⟨hc.joins, hc.controls, hc.data,
        hc.shared.trans (.publish _ (.inr (.inr (.inr rfl))))⟩
    · exact hc
  obtain ⟨new, hevents, hen, ha⟩ := he.shared.events
  exact ⟨new, {
    config := he.shared.config
    joins := he.joins
    controls := he.controls
    data := he.data
    nextSession_le := Nat.le_of_eq he.shared.nextSession.symm
    routes := fun session route h => .inl ⟨route, he.shared.routes session route h, .refl route⟩
    closed := ha
    events := hevents }, hen⟩

/-! ### Sessions come, are opened and deliver -/

/-- What offering an event to the queue does: the event is behind the rest, or its session is
closed. -/
theorem tryPushSessionEvent_cases (s : Shared) (room : Bool) (event : Event) :
    (s.tryPushSessionEvent room event).1 = s.publish event ∨
      Ended s (s.tryPushSessionEvent room event).1 := by
  unfold Shared.tryPushSessionEvent
  split_ifs
  · exact .inl rfl
  · exact .inr (ended_close s _ _ _)
  · exact .inr (.refl s)

/-- The new events of a step that may add one announcement. -/
def Adds (event : Event) (new : List Event) : Prop := new = [event] ∨ ∀ e ∈ new, Ends e

section Push

variable {n : NetworkRuntime} {s : Shared} {endpoints : Table Handle NativeEndpoint}
  (h : Net [] n { n with shared := s, endpoints := endpoints }) (hevents : s.events = n.shared.events)

include h hevents

theorem netEnds_ended (he : Ended s s') :
    NetEnds n { n with shared := s', endpoints := endpoints } := by
  obtain ⟨new, hn, hen, ha⟩ := he.events
  refine ⟨new, {
    config := he.config.trans h.config
    joins := rfl
    controls := rfl
    data := rfl
    nextSession_le := h.nextSession_le.trans_eq he.nextSession.symm
    routes := fun session route hr => ?_
    closed := h.closed.trans ha
    events := by rw [← hevents]; exact hn }, hen⟩
  have hk := h.routes session route (he.routes session route hr)
  rw [he.nextSession]
  exact hk

theorem net_publish (event : Event) :
    Net [event] n { n with shared := s.publish event, endpoints := endpoints } :=
  { h with
    closed := fun session hs hn =>
      (h.closed session hs hn).elim fun _ he => absurd he.1 List.not_mem_nil
    events := congrArg (· ++ [event]) hevents }

theorem net_push (room : Bool) (event : Event) :
    ∃ new, Net new n { n with
      shared := (s.tryPushSessionEvent room event).1, endpoints := endpoints } ∧ Adds event new := by
  rcases tryPushSessionEvent_cases s room event with hp | he
  · rw [hp]
    exact ⟨[event], net_publish h hevents event, .inl rfl⟩
  · obtain ⟨new, hn, hen⟩ := netEnds_ended h hevents he
    exact ⟨new, hn, .inr hen⟩

end Push

theorem announced_insert (hs : s'.sessions = s.sessions.insert session route) (new : List Event) :
    Announced s s' new := by
  intro other hso hn
  rw [hs, lookup_insert_ite] at hn
  split_ifs at hn
  rw [hn] at hso
  cases hso

theorem net_insert (hr : route.established = false)
    (pendingHandshakes : ℕ) (endpoints : Table Handle NativeEndpoint) :
    Net [] n { n with
      endpoints := endpoints
      shared := { n.shared with
        sessions := n.shared.sessions.insert n.shared.nextSession route
        nextSession := n.shared.nextSession + 1
        pendingHandshakes := pendingHandshakes } } where
  config := rfl
  joins := rfl
  controls := rfl
  data := rfl
  nextSession_le := Nat.le_succ _
  routes := by
    intro session route' h
    rw [lookup_insert_ite] at h
    split_ifs at h with he
    · cases h
      exact .inr ⟨Nat.le_of_eq he.symm, he ▸ Nat.lt_succ_self _, hr⟩
    · exact .inl ⟨route', h, .refl _⟩
  closed := announced_insert rfl _
  events := (List.append_nil _).symm

variable (n : NetworkRuntime)

theorem net_accept (endpoint : Handle) (peer : SocketAddr) (peerKey join : Bytes) (room : Bool) :
    NetEnds n (n.accept endpoint peer peerKey join room) ∨
    (∃ native, n.endpoints.lookup endpoint = some native ∧ native.server = true) ∧
      Net [{ eventType := .authRequest, endpoint := endpoint, session := n.shared.nextSession
             data := peerKey ++ join }] n (n.accept endpoint peer peerKey join room) ∧
      ∃ route, (n.accept endpoint peer peerKey join room).shared.sessions.lookup
        n.shared.nextSession = some route ∧ route.endpoint = endpoint := by
  unfold NetworkRuntime.accept
  split
  · exact .inl (netEnds_refl n)
  rename_i native hn
  split_ifs with hs
  · exact .inl (netEnds_refl n)
  have hse : native.server = true := by simpa using hs
  have hp : ∀ {s route event}, Net [] n { n with shared := s } →
      s.events = n.shared.events → s.sessions.lookup n.shared.nextSession = some route →
      route.endpoint = endpoint →
      NetEnds n { n with shared := (s.tryPushSessionEvent room event).1 } ∨
      (∃ native, n.endpoints.lookup endpoint = some native ∧ native.server = true) ∧
        Net [event] n { n with shared := (s.tryPushSessionEvent room event).1 } ∧
        ∃ route, (s.tryPushSessionEvent room event).1.sessions.lookup n.shared.nextSession =
          some route ∧ route.endpoint = endpoint := by
    intro s route event hne hevents hr he
    rcases tryPushSessionEvent_cases s room event with hpu | hen
    · rw [hpu]
      exact .inr ⟨⟨native, hn, hse⟩, net_publish hne hevents event, route, hr,
        he⟩
    · exact .inl (netEnds_ended hne hevents hen)
  unfold Shared.insertSessionRoute
  split_ifs
  · exact .inl (netEnds_refl n)
  · exact hp (net_insert rfl _ _) rfl (AList.lookup_insert _) rfl
  · exact hp (net_insert rfl _ _) rfl (AList.lookup_insert _) rfl

theorem net_join (endpoint : Handle) (peer : SocketAddr) :
    Net [] n (n.join endpoint peer) ∧ ∀ route,
      (n.join endpoint peer).shared.sessions.lookup n.shared.nextSession = some route →
        n.shared.sessions.lookup n.shared.nextSession = some route ∨ route.endpoint = endpoint := by
  unfold NetworkRuntime.join
  split
  · exact ⟨.refl n, fun _ => .inl⟩
  split_ifs
  · exact ⟨.refl n, fun _ => .inl⟩
  unfold Shared.insertSessionRoute
  split_ifs
  · exact ⟨.refl n, fun _ => .inl⟩
  all_goals
    refine ⟨net_insert rfl _ _, fun route h => .inr ?_⟩
    rw [lookup_insert_ite, if_pos rfl] at h
    cases h
    rfl

theorem net_establish (session : Handle) (room : Bool) :
    (NetEnds n (n.establish session room)) ∨
    ∃ route, n.shared.sessions.lookup session = some route ∧ route.established = false ∧
      (route.securityCommands = true → n.shared.authDecisions.lookup session = some true) ∧
      (∀ route', (n.establish session room).shared.sessions.lookup session = some route' →
        route'.established = true) ∧
      Net [sessionEvent .sessionOpened route.endpoint session] n
        (n.establish session room) := by
  unfold NetworkRuntime.establish
  split
  · exact .inl (netEnds_refl n)
  rename_i route hr
  split_ifs with hb
  · exact .inl (netEnds_refl n)
  simp only [Bool.or_eq_true, Bool.and_eq_true, bne_iff_ne, ne_eq, not_or, not_and, not_not,
    Bool.not_eq_true] at hb
  have hm : ∃ pendingHandshakes, (n.shared.markSessionEstablished session).1 =
      { n.shared with
        sessions := n.shared.sessions.insert session
          { route with established := true, authDecision := false }
        pendingHandshakes := pendingHandshakes } := by
    unfold Shared.markSessionEstablished
    rw [hr]
    exact ⟨_, rfl⟩
  obtain ⟨pendingHandshakes, hm⟩ := hm
  have hn : Net [] n { n with shared := (n.shared.markSessionEstablished session).1 } := by
    rw [hm]
    exact {
      config := rfl
      joins := rfl
      controls := rfl
      data := rfl
      nextSession_le := Nat.le_refl _
      routes := by
        intro other route' h
        rw [lookup_insert_ite] at h
        split_ifs at h with heq
        · cases h
          exact .inl ⟨route, heq ▸ hr, rfl, rfl, rfl, fun _ => rfl⟩
        · exact .inl ⟨route', h, .refl _⟩
      closed := announced_insert rfl _
      events := (List.append_nil _).symm }
  have hevents : (n.shared.markSessionEstablished session).1.events = n.shared.events := by
    rw [hm]
  rcases tryPushSessionEvent_cases (n.shared.markSessionEstablished session).1 room
    (sessionEvent .sessionOpened route.endpoint session) with hp | he
  · right
    refine ⟨route, hr, hb.1, fun h => hb.2 h, ?_, ?_⟩
    · intro route' h
      rw [hp, hm] at h
      change (n.shared.sessions.insert _ _).lookup session = some route' at h
      rw [lookup_insert_ite, if_pos rfl] at h
      cases h
      rfl
    · rw [hp]
      exact net_publish hn hevents _
  · exact .inl (netEnds_ended hn hevents he)

theorem net_deliver (session : Handle) (delivery : NetworkRuntime.Delivery) (room : Bool) :
    (NetEnds n (n.deliver session delivery room)) ∨
    ∃ route, n.shared.sessions.lookup session = some route ∧ route.established = true ∧
      Net [delivery.event route.endpoint session] n (n.deliver session delivery room) := by
  unfold NetworkRuntime.deliver
  split
  · exact .inl (netEnds_refl n)
  rename_i route hr
  split_ifs with hes
  · exact .inl (netEnds_refl n)
  obtain ⟨new, hn, ha⟩ := net_push (.refl n) rfl room
    (delivery.event route.endpoint session)
  rcases ha with rfl | he
  · exact .inr ⟨route, hr, by simpa using hes, hn⟩
  · exact .inl ⟨new, hn, he⟩

theorem lose_cases (index : ℕ) : n.lose index = n ∨
    ∃ event, n.shared.events[index]? = some event ∧
      NetworkRuntime.expendable event.eventType = true ∧ n.lose index =
        { n with shared := { n.shared with events := n.shared.events.eraseIdx index } } := by
  unfold NetworkRuntime.lose
  split
  · exact .inl rfl
  rename_i event hev
  split_ifs with he
  · exact .inr ⟨event, hev, he, rfl⟩
  · exact .inl rfl

theorem net_announceEndpoint (event : EventType) (endpoint : Handle) :
    ∃ new, Net new n (GameRuntime.announceEndpoint n event endpoint) ∧ ∀ e ∈ new,
      e.eventType = .runtimeStarted ∨ e.eventType = .endpointOpened := by
  unfold GameRuntime.announceEndpoint
  split_ifs with h
  · exact ⟨[_], .of_sub rfl rfl (.refl _) (.refl _ _) rfl, List.forall_mem_singleton.mpr h⟩
  · exact ⟨[], .refl n, nofun⟩

theorem net_authDecide (session : Handle) (accept expired : Bool) :
    Net [] n (n.authDecide session accept expired).1 := by
  unfold NetworkRuntime.authDecide
  split
  · exact .refl n
  rename_i route hro
  have hr : ∀ other route', (n.shared.sessions.insert session
      { route with authDecision := false }).lookup other = some route' →
      ∃ r, n.shared.sessions.lookup other = some r ∧ Continues r route' := by
    intro other route' h
    rw [lookup_insert_ite] at h
    split_ifs at h with he
    · cases h
      exact ⟨route, he ▸ hro, rfl, rfl, rfl, id⟩
    · exact ⟨route', h, .refl _⟩
  have hevents : n.shared.events = n.shared.events ++ [] := (List.append_nil _).symm
  split_ifs
  · exact .refl n
  · exact ⟨rfl, rfl, rfl, rfl, Nat.le_refl _, fun other route' h => .inl (hr other route' h),
      announced_insert rfl _, hevents⟩
  · exact ⟨rfl, rfl, rfl, rfl, Nat.le_refl _, fun other route' h => .inl (hr other route' h),
      announced_insert rfl _, hevents⟩

end Rnet.Game.Workers
