import Rnet.Game.Runtime

/-! # What cleanup can do

Kicks, expiries, takeovers, closed endpoints and lost routes all end in the same operations. Whatever
the path, they only take things out of the tables of the runtime, they take the whole of a session out
together, the backlog loses exactly the events of the sessions that go, and the only new transport
events are announcements of closed sessions. `Sheds` says so once for all of them. -/

namespace Rnet.Game.Cleanup

open Rnet.Core Lib.FiniteMap Transport.State Event RangeState Resume Network Game.Runtime
open Game.Runtime.GameRuntime

/-- Every route that goes is announced as closed. -/
def Announced (s s' : Shared) (new : List Core.Event) : Prop :=
  ∀ session, (s.sessions.lookup session).isSome → s'.sessions.lookup session = none →
    ∃ e ∈ new, e.eventType = .sessionClosed ∧ e.session = session

theorem Announced.refl (s : Shared) (new : List Core.Event) : Announced s s new :=
  fun session hs hn => by rw [hn] at hs; cases hs

theorem Announced.trans (h : Announced s s' l) (h' : Announced s' s'' l') :
    Announced s s'' (l ++ l') := by
  intro session hs hn
  by_cases hm : (s'.sessions.lookup session).isSome = true
  · obtain ⟨e, he, hc⟩ := h' session hm hn
    exact ⟨e, List.mem_append_right _ he, hc⟩
  · obtain ⟨e, he, hc⟩ := h session hs (Option.not_isSome_iff_eq_none.mp hm)
    exact ⟨e, List.mem_append_left _ he, hc⟩

/-- The shared state only lost routes, and closes were announced. -/
structure Closes (s s' : Shared) : Prop where
  config : s'.config = s.config
  running : s'.running = s.running
  nextSession : s'.nextSession = s.nextSession
  authDecisions : s'.authDecisions = s.authDecisions
  routes : Sub s'.sessions s.sessions
  events : ∃ closes, s'.events = s.events ++ closes ∧ (∀ e ∈ closes, e.eventType = .sessionClosed) ∧
    Announced s s' closes

namespace Closes

theorem refl (s : Shared) : Closes s s :=
  ⟨rfl, rfl, rfl, rfl, .refl _, [], by simp, nofun, .refl s _⟩

theorem trans (h : Closes s s') (h' : Closes s' s'') : Closes s s'' := by
  obtain ⟨l, hl, hc, ha⟩ := h.events
  obtain ⟨l', hl', hc', ha'⟩ := h'.events
  refine ⟨h'.config.trans h.config, h'.running.trans h.running, h'.nextSession.trans h.nextSession,
    h'.authDecisions.trans h.authDecisions, h'.routes.trans h.routes, l ++ l', ?_, ?_,
    ha.trans ha'⟩
  · rw [hl', hl, List.append_assoc]
  · intro e he
    exact (List.mem_append.mp he).elim (hc e) (hc' e)

end Closes

theorem announced_erase {session : Handle} (hs : s'.sessions = s.sessions.erase session)
    (he : e ∈ new) (hc : e.eventType = .sessionClosed) (hse : e.session = session) :
    Announced s s' new := by
  intro other hso hn
  rw [hs, lookup_erase_ite] at hn
  split_ifs at hn with heq
  · exact ⟨e, he, hc, hse.trans heq.symm⟩
  · rw [hn] at hso
    cases hso

theorem closes_close (s : Shared) (session : Handle) (reason : ErrorCode) :
    Closes s (s.close session reason false) := by
  unfold Shared.close
  split
  · exact .refl s
  rename_i route hro
  simp only [Bool.false_and, Bool.false_eq_true, if_false, Shared.requestCleanup_eq]
  exact ⟨rfl, rfl, rfl, rfl, .erase _ _,
    [⟨.sessionClosed, route.endpoint, session, 0, reason, [], false⟩], rfl,
    List.forall_mem_singleton.mpr rfl, announced_erase rfl (List.mem_singleton_self _) rfl rfl⟩

def Unowned (owners : Table Handle Handle) (endpoint : Handle) : Prop :=
  ∀ session, owners.lookup session ≠ some endpoint

/-- An endpoint table loses endpoints that own nothing. -/
structure Narrows {V : Type} (owners : Table Handle Handle) (t t' : Table Handle V) : Prop where
  sub : Sub t' t
  kept : ∀ e v, t.lookup e = some v → t'.lookup e = some v ∨ Unowned owners e

/-- A session is in none of the tables that `forget_ready_session` only narrows. -/
structure Forgotten (g : GameRuntime) (session : Handle) : Prop where
  heartbeat : g.heartbeatTrackers.lookup session = none
  serverSession : g.resume.serverSessions.lookup session = none
  pending : g.resume.pendingServer.lookup session = none
  inflight : ∀ old, g.resume.inflightServer.lookup old ≠ some session

/-- **What cleanup does**: the sessions `gone` are taken out, and nothing is added. -/
structure Sheds (gone : List Handle) (g g' : GameRuntime) : Prop where
  network : g'.network = { g.network with shared := g'.network.shared }
  closes : Closes g.network.shared g'.network.shared
  poll : g'.poll = g.poll
  returned : g'.returned = g.returned
  published : g'.published = g.published
  redeemed : g'.redeemed = g.redeemed
  owners : Purged gone g.sessionEndpoints g'.sessionEndpoints
  sessions : Purged gone g.range.sessions g'.range.sessions
  udpSessions : Purged gone g.udpSessions g'.udpSessions
  clockTrackers : Purged gone g.clockTrackers g'.clockTrackers
  admission : Purged gone g.admission g'.admission
  scheduled : ∀ m ∈ g'.scheduled, m ∈ g.scheduled ∧ m.1 ∉ gone
  realtime : ∀ key m, g'.realtime.lookup key = some m → g.realtime.lookup key = some m ∧ key.1 ∉ gone
  forgotten : ∀ session ∈ gone, Forgotten g' session
  heartbeats : Sub g'.heartbeatTrackers g.heartbeatTrackers
  completed : g'.range.completed = g.range.completed.filter fun c =>
    gone.all fun session => !c.event.belongsTo session
  transports : Narrows g'.sessionEndpoints g.endpointTransports g'.endpointTransports
  servers : Narrows g'.sessionEndpoints g.range.serverEndpoints g'.range.serverEndpoints
  clients : Sub g'.range.clientEndpoints g.range.clientEndpoints
  tickets : ResumeRegistry.Loses g.resume.tickets g'.resume.tickets
  ttl : g'.resume.ttl = g.resume.ttl
  serverSessions : Sub g'.resume.serverSessions g.resume.serverSessions
  pending : Sub g'.resume.pendingServer g.resume.pendingServer
  inflight : Sub g'.resume.inflightServer g.resume.inflightServer
  resuming : Sub g'.resume.clientEndpoints g.resume.clientEndpoints

variable {owners : Table Handle Handle}

theorem Narrows.same : Narrows owners t t := ⟨.refl t, fun _ _ h => .inl h⟩

theorem Unowned.mono (h : Unowned owners e) (ho : Sub owners' owners) : Unowned owners' e :=
  fun session hs => h session (ho session e hs)

theorem Narrows.trans (h : Narrows owners t t') (h' : Narrows owners' t' t'')
    (ho : Sub owners' owners) : Narrows owners' t t'' := by
  refine ⟨h'.sub.trans h.sub, fun e v hv => ?_⟩
  rcases h.kept e v hv with hk | hu
  · exact h'.kept e v hk
  · exact .inr (hu.mono ho)

namespace Sheds

theorem refl (g : GameRuntime) : Sheds [] g g where
  network := rfl
  closes := .refl _
  poll := rfl
  returned := rfl
  published := rfl
  redeemed := rfl
  owners := .refl _
  sessions := .refl _
  udpSessions := .refl _
  clockTrackers := .refl _
  admission := .refl _
  scheduled := fun _ h => ⟨h, List.not_mem_nil⟩
  realtime := fun _ _ h => ⟨h, List.not_mem_nil⟩
  forgotten := nofun
  heartbeats := .refl _
  completed := by simp
  transports := .same
  servers := .same
  clients := .refl _
  tickets := .refl _
  ttl := rfl
  serverSessions := .refl _
  pending := .refl _
  inflight := .refl _
  resuming := .refl _

theorem trans (h : Sheds l g g') (h' : Sheds l' g' g'') : Sheds (l ++ l') g g'' where
  network := by rw [h'.network, h.network]
  closes := h.closes.trans h'.closes
  poll := h'.poll.trans h.poll
  returned := h'.returned.trans h.returned
  published := h'.published.trans h.published
  redeemed := h'.redeemed.trans h.redeemed
  owners := h.owners.trans h'.owners
  sessions := h.sessions.trans h'.sessions
  udpSessions := h.udpSessions.trans h'.udpSessions
  clockTrackers := h.clockTrackers.trans h'.clockTrackers
  admission := h.admission.trans h'.admission
  scheduled := fun m hm => by
    obtain ⟨hmi, hn⟩ := h'.scheduled m hm
    obtain ⟨hol, hf⟩ := h.scheduled m hmi
    exact ⟨hol, fun hi => (List.mem_append.mp hi).elim hf hn⟩
  realtime := fun key m hm => by
    obtain ⟨hmi, hn⟩ := h'.realtime key m hm
    obtain ⟨hol, hf⟩ := h.realtime key m hmi
    exact ⟨hol, fun hi => (List.mem_append.mp hi).elim hf hn⟩
  forgotten := fun session hi => by
    rcases List.mem_append.mp hi with hi | hi
    · obtain ⟨hh, hs, hp, hinf⟩ := h.forgotten session hi
      exact ⟨h'.heartbeats.lookup_none hh, h'.serverSessions.lookup_none hs,
        h'.pending.lookup_none hp, fun old ho => hinf old (h'.inflight old session ho)⟩
    · exact h'.forgotten session hi
  heartbeats := h'.heartbeats.trans h.heartbeats
  completed := by
    rw [h'.completed, h.completed, List.filter_filter]
    refine List.filter_congr fun c _ => ?_
    rw [List.all_append, Bool.and_comm]
  transports := h.transports.trans h'.transports h'.owners.sub
  servers := h.servers.trans h'.servers h'.owners.sub
  clients := h'.clients.trans h.clients
  tickets := h.tickets.trans h'.tickets
  ttl := h'.ttl.trans h.ttl
  serverSessions := h'.serverSessions.trans h.serverSessions
  pending := h'.pending.trans h.pending
  inflight := h'.inflight.trans h.inflight
  resuming := h'.resuming.trans h.resuming

end Sheds

/-! ### The cleanup operations -/

theorem forgetSession_spec (r : RangeRuntimeState) (session : Handle) :
    Purged [session] r.sessions (r.forgetSession session).sessions ∧
      (r.forgetSession session).serverEndpoints = r.serverEndpoints ∧
      (r.forgetSession session).clientEndpoints = r.clientEndpoints ∧
      (r.forgetSession session).completed =
        r.completed.filter fun c => !c.event.belongsTo session := by
  unfold RangeRuntimeState.forgetSession RangeRuntimeState.releaseSession
  rcases hs : r.sessions.lookup session with - | state
  · refine ⟨fun other => ?_, rfl, rfl, rfl⟩
    change r.sessions.lookup other = _
    split_ifs with h
    · rw [List.mem_singleton.mp h, hs]
    · rfl
  · exact ⟨.erase _ _, rfl, rfl, rfl⟩

theorem sheds_forgetReadySession (g : GameRuntime) (session : Handle) :
    Sheds [session] g (g.forgetReadySession session) := by
  obtain ⟨hs, hse, hcl, hc⟩ := forgetSession_spec g.range session
  exact {
    network := rfl
    closes := .refl _
    poll := rfl
    returned := rfl
    published := rfl
    redeemed := rfl
    owners := .erase _ _
    sessions := hs
    udpSessions := .erase _ _
    clockTrackers := .erase _ _
    admission := .erase _ _
    scheduled := by
      intro m hm
      have hk := List.mem_filter.mp hm
      exact ⟨hk.1, fun hi => of_decide_eq_true hk.2 (List.mem_singleton.mp hi)⟩
    realtime := by
      intro key m hm
      change (filter g.realtime _).lookup key = some m at hm
      rw [lookup_filter, Option.filter_eq_some_iff] at hm
      exact ⟨hm.1, fun hi => of_decide_eq_true hm.2 (List.mem_singleton.mp hi)⟩
    forgotten := by
      intro other hi
      rw [List.mem_singleton.mp hi]
      refine ⟨AList.lookup_erase _ _, AList.lookup_erase _ _, AList.lookup_erase _ _, ?_⟩
      intro old ho
      change (filter g.resume.inflightServer _).lookup old = some session at ho
      rw [lookup_filter, Option.filter_eq_some_iff] at ho
      exact of_decide_eq_true ho.2 rfl
    heartbeats := .erase _ _
    completed := by
      change (g.range.forgetSession session).completed = _
      rw [hc]
      refine List.filter_congr fun c _ => ?_
      rw [List.all_cons, List.all_nil, Bool.and_true]
    transports := .same
    servers := by
      change Narrows _ g.range.serverEndpoints (g.range.forgetSession session).serverEndpoints
      rw [hse]
      exact .same
    clients := by
      change Sub (g.range.forgetSession session).clientEndpoints g.range.clientEndpoints
      rw [hcl]
      exact .refl _
    tickets := .refl _
    ttl := rfl
    serverSessions := .erase _ _
    pending := .erase _ _
    inflight := .filter _ _
    resuming := .refl _ }

theorem closes_closeSession (n : NetworkRuntime) (session : Handle) (reason : ErrorCode) :
    (n.closeSession session reason).1 = { n with shared := (n.closeSession session reason).1.shared } ∧
      Closes n.shared (n.closeSession session reason).1.shared := by
  unfold NetworkRuntime.closeSession
  split_ifs
  · exact ⟨rfl, closes_close _ _ _⟩
  · exact ⟨rfl, .refl _⟩

variable {g : GameRuntime}

theorem Sheds.of_network (hn : n = { g.network with shared := n.shared })
    (hc : Closes g.network.shared n.shared) :
    Sheds [] g { g with network := n } :=
  { Sheds.refl g with network := hn, closes := hc, forgotten := nofun }

theorem sheds_closeRoute (g : GameRuntime) (session : Handle) (reason : ErrorCode) :
    Sheds [] g (g.closeRoute session reason) :=
  .of_network (closes_closeSession _ _ _).1 (closes_closeSession _ _ _).2

theorem sheds_discard (g : GameRuntime) (session : Handle) (reason : ErrorCode) :
    Sheds [session] g (g.discard session reason) :=
  (sheds_closeRoute g session reason).trans (sheds_forgetReadySession _ session)

theorem sheds_foldl (h : ∀ g session, ∃ gone, session ∈ gone ∧ Sheds gone g (f g session)) :
    ∀ (l : List Handle) (g : GameRuntime), ∃ gone, (∀ session ∈ l, session ∈ gone) ∧
      Sheds gone g (l.foldl f g)
  | [], g => ⟨[], nofun, .refl g⟩
  | session :: l, g => by
    obtain ⟨gone, hm, hf⟩ := h g session
    obtain ⟨gone', hm', hr⟩ := sheds_foldl h l (f g session)
    refine ⟨gone ++ gone', ?_, hf.trans hr⟩
    intro other ho
    rcases List.mem_cons.mp ho with rfl | ho
    · exact List.mem_append_left _ hm
    · exact List.mem_append_right _ (hm' other ho)

theorem sheds_discards (l : List Handle) (reason : ErrorCode) (g : GameRuntime) :
    ∃ gone, (∀ session ∈ l, session ∈ gone) ∧
      Sheds gone g (l.foldl (fun g session => g.discard session reason) g) :=
  sheds_foldl (fun g session => ⟨[session], List.mem_singleton_self _, sheds_discard g session reason⟩)
    l g

theorem sheds_revokeClaims (g : GameRuntime) (session : Handle) :
    Sheds [] g { g with resume := revokeClaims g.resume session } :=
  { Sheds.refl g with
    forgotten := nofun
    tickets := ResumeRegistry.loses_revokeSession _ _
    pending := .filter _ _
    serverSessions := .filter _ _ }

theorem sheds_revokeResumeSession (g : GameRuntime) (session : Handle) :
    ∃ gone, Sheds gone g (g.revokeResumeSession session) := by
  obtain ⟨gone, -, hd⟩ := sheds_discards
    (pendingOf g.resume session ++ (g.resume.inflightServer.lookup session).toList) .cancelled
    { g with resume := revokeClaims g.resume session }
  exact ⟨[] ++ gone, (sheds_revokeClaims g session).trans hd⟩

theorem sheds_revokeEndpoint (g : GameRuntime) (endpoint : Handle) :
    Sheds [] g { g with resume := { g.resume with
      tickets := g.resume.tickets.revokeEndpoint endpoint } } :=
  { Sheds.refl g with forgotten := nofun, tickets := ResumeRegistry.loses_revokeEndpoint _ _ }

theorem sheds_dropEndpoint {endpoint : Handle} (h : Unowned g.sessionEndpoints endpoint) :
    Sheds [] g { g with
      resume := { g.resume with clientEndpoints := g.resume.clientEndpoints.erase endpoint }
      endpointTransports := g.endpointTransports.erase endpoint
      range := g.range.forgetEndpoint endpoint } := by
  have he : ∀ {V : Type} (t : Table Handle V), Narrows g.sessionEndpoints t (t.erase endpoint) := by
    intro V t
    refine ⟨.erase _ _, fun e v hv => ?_⟩
    rw [lookup_erase_ite]
    split_ifs with heq
    · exact .inr (heq ▸ h)
    · exact .inl hv
  exact { Sheds.refl g with
    forgotten := nofun
    transports := ⟨(he _).sub, (he _).kept⟩
    servers := ⟨(he _).sub, (he _).kept⟩
    clients := .erase _ _
    resuming := .erase _ _ }

theorem mem_ownedSessions {endpoint session : Handle} :
    session ∈ g.ownedSessions endpoint ↔ g.sessionEndpoints.lookup session = some endpoint := by
  unfold ownedSessions
  rw [List.mem_map]
  constructor
  · rintro ⟨e, he, rfl⟩
    have hf := lookup_eq_some_iff.mpr he
    rw [lookup_filter, Option.filter_eq_some_iff] at hf
    rw [hf.1, of_decide_eq_true hf.2]
  · intro h
    refine ⟨⟨session, endpoint⟩, lookup_eq_some_iff.mp ?_, rfl⟩
    rw [lookup_filter, h, Option.filter_some, if_pos (decide_eq_true rfl)]

theorem sheds_forgetEndpointState (g : GameRuntime) (endpoint : Handle) :
    ∃ gone, Sheds gone g (g.forgetEndpointState endpoint) := by
  have hr := sheds_revokeEndpoint g endpoint
  obtain ⟨gone, ha, hf⟩ := sheds_foldl
    (f := fun (g : GameRuntime) session => (g.revokeResumeSession session).forgetReadySession session)
    (fun g session => by
      obtain ⟨gone, h⟩ := sheds_revokeResumeSession g session
      exact ⟨gone ++ [session], List.mem_append_right _ (List.mem_singleton_self _),
        h.trans (sheds_forgetReadySession _ session)⟩)
    (ownedSessions { g with resume := { g.resume with
      tickets := g.resume.tickets.revokeEndpoint endpoint } } endpoint)
    { g with resume := { g.resume with tickets := g.resume.tickets.revokeEndpoint endpoint } }
  refine ⟨[] ++ gone ++ [], (hr.trans hf).trans (sheds_dropEndpoint fun session h => ?_)⟩
  have ho := hf.owners session
  rw [h, if_pos (ha session (mem_ownedSessions.mpr (hf.owners.sub session endpoint h)))] at ho
  cases ho

theorem sheds_reapClosedEndpoints (g : GameRuntime) :
    ∃ gone, Sheds gone g g.reapClosedEndpoints := by
  unfold reapClosedEndpoints
  split_ifs
  · exact ⟨[], .refl g⟩
  refine List.foldlRecOn (motive := fun g' => ∃ gone, Sheds gone g g') _ _ ⟨[], .refl g⟩ ?_
  rintro g' ⟨gone, h⟩ endpoint -
  obtain ⟨gone', hf⟩ := sheds_forgetEndpointState g' endpoint
  exact ⟨gone ++ gone', h.trans hf⟩

end Rnet.Game.Cleanup
