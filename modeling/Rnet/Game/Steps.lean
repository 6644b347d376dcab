import Rnet.Game.Conversion

/-! # What a step can do

Every step of a runtime is made of a few kinds of change: cleanup, a control sent, the converted
event, a call of the application, an action of the workers, and the bookkeeping of a poll, which
moves events along without touching anything else. `Keeps` asks of a property that each of them
keeps it, and then every step keeps it (`Keeps.step`). Properties that do not look at the returned
events need less, which is `TableKeeps`. -/

namespace Rnet.Game.Steps

open Rnet.Core Lib.BigEndian Lib.FiniteMap
open Transport.Config (SocketAddr)
open Transport.Session (sessionEvent)
open Envelope (ControlKind encodeApplication encodeUdpApplication)
open Join Controls Event RangeState Resume Network Game.Runtime Game.Runtime.GameRuntime Cleanup Workers
open Conversion

/-! ### Maintenance -/

def Repeats (state : RangeSession) (operation : UInt8) : Prop :=
  state.phase = .serverAwaitAck ∧ operation = select ∨
    state.phase = .clientAwaitReady ∧ operation = Controls.ack

structure Maintained (I : GameRuntime → Prop) : Prop where
  shed : ∀ {gone g g'}, I g → Sheds gone g g' → I g'
  sent : ∀ {g g' session kind payload r}, I g → Emits g session kind payload →
    Sent kind session payload g g' r → I g'
  rescheduled : ∀ {g} (now : Instant), I g → I { g with range := (g.range.dueControls now).1 }
  repeated : ∀ {g g' session state operation r}, I g →
    g.range.sessions.lookup session = some state → Repeats state operation →
    Sent .protocol session (selectionPayload (state.control operation)) g g' r → I g'

namespace Maintained

variable {I : GameRuntime → Prop} (h : Maintained I) (env : Env)

include h

theorem driveHeartbeats (hI : I g) : I (driveHeartbeats env g) := by
  refine List.foldlRecOn _ _ (List.foldlRecOn _ _ hI fun g hI tick _ => ?_) fun g hI tick _ => ?_
  · unfold sendProbe
    split
    · exact h.sent hI (.heartbeat _) (sent_sendControl _ _ _ _ _)
    · exact hI
  · unfold closeFailed
    split
    · rename_i reason _
      have hc := closes_closeSession g.network tick.1 reason
      exact h.shed hI { Sheds.of_network hc.1 hc.2 with
        forgotten := nofun, heartbeats := .erase _ _ }
    · exact hI

theorem driveClockSync (hI : I g) : I (driveClockSync env g) := by
  refine List.foldlRecOn env.clockProbes _ hI fun g hI probe _ => ?_
  split_ifs with hc
  · exact h.sent hI (.clockProbe _ _ hc) (sent_sendControl _ _ _ _ _)
  · exact hI

omit h in
/-- A control that is due is one its negotiation repeats, also after it was rescheduled. -/
theorem repeats_of_due {r : RangeRuntimeState} {now : Instant} {session : Handle}
    {control : Selection}
    (hm : (session, control) ∈ (r.dueControls now).2.1) :
    ∃ state operation, (r.dueControls now).1.sessions.lookup session = some state ∧
      Repeats state operation ∧ control = state.control operation := by
  obtain ⟨⟨key, state⟩, he, hd⟩ := List.mem_filterMap.mp hm
  have hst := lookup_eq_some_iff.mpr he
  split at hd
  · rename_i operation ho
    cases hd
    refine ⟨RangeRuntimeState.RangeSession.rescheduled state now, operation,
      (lookup_mapValues _ _ _).trans (by rw [hst]; rfl), ?_, ?_⟩
    · unfold Repeats RangeRuntimeState.RangeSession.rescheduled
      rw [ho]
      unfold RangeRuntimeState.RangeSession.due at ho
      dsimp only at ho
      split at ho
      · split_ifs at ho
        cases ho
        exact .inl ⟨‹_›, rfl⟩
      · split_ifs at ho
        cases ho
        exact .inr ⟨‹_›, rfl⟩
      · split_ifs at ho
      all_goals cases ho
    · unfold RangeRuntimeState.RangeSession.rescheduled
      rw [ho]
      rfl
  · cases hd

theorem driveRangeNegotiation (hI : I g) : I (driveRangeNegotiation env g) := by
  -- The sends do not change the negotiations, so each control is still that of its session.
  have hse : I ((g.range.dueControls env.now).2.1.foldl
      (fun g retry => (sendRangeControl env g retry.1 retry.2).1)
      { g with range := (g.range.dueControls env.now).1 }) := by
    refine (List.foldlRecOn (motive := fun g' => I g' ∧ g'.range = (g.range.dueControls env.now).1)
      (g.range.dueControls env.now).2.1 _ ⟨h.rescheduled env.now hI, rfl⟩ ?_).1
    rintro g' ⟨hI', hr⟩ ⟨session, control⟩ hm
    have hs := sent_sendControl env g' .protocol session (selectionPayload control)
    obtain ⟨state, operation, hst, hre, rfl⟩ := repeats_of_due hm
    exact ⟨h.repeated hI' (hr ▸ hst) hre hs, hs.range.trans hr⟩
  obtain ⟨gone, -, hsh⟩ := sheds_discards (g.range.dueControls env.now).2.2 .timeout
    ((g.range.dueControls env.now).2.1.foldl
      (fun g retry => (sendRangeControl env g retry.1 retry.2).1)
      { g with range := (g.range.dueControls env.now).1 })
  exact h.shed hse hsh

theorem maintain (hI : I g) : I (maintain env g) :=
  h.driveRangeNegotiation env (h.driveClockSync env (h.driveHeartbeats env hI))

omit env in
theorem reap (hI : I g) : I g.reapClosedEndpoints := by
  obtain ⟨gone, hs⟩ := sheds_reapClosedEndpoints g
  exact h.shed hI hs

end Maintained

/-! ### The way of an event through a poll -/

/-- Transport events that were not converted yet, the oldest first. -/
def pipeline (g : GameRuntime) : List Core.Event :=
  (g.poll.elim [] Poll.batch) ++ g.network.shared.events

/-- Everything that was or will be returned, in order. -/
def stream (g : GameRuntime) : List GameEvent :=
  g.returned ++ (g.poll.elim [] Poll.output) ++ g.range.backlog

/-- Only the bookkeeping of polls and the backlog differ. -/
structure Same (g g' : GameRuntime) : Prop where
  core : g' = { g with
    network := { g.network with shared := { g.network.shared with
      events := g'.network.shared.events } }
    poll := g'.poll
    returned := g'.returned
    range := g'.range }
  tables : RangeRuntimeState.SameTables g.range g'.range
  pipeline : pipeline g' = pipeline g

/-- Nothing becomes public. -/
structure Quiet (g g' : GameRuntime) : Prop extends Same g g' where
  stream : stream g' = stream g

/-- An event was staged: behind everything, and a readiness in front of the session's messages. -/
structure Stages (outcome : Option GameEvent) (g g' : GameRuntime) : Prop extends Same g g' where
  silent : outcome = none → stream g' = stream g
  added : ∀ e, outcome = some e → ∃ front back, g.range.backlog = front ++ back ∧
    stream g' = g.returned ++ (g.poll.elim [] Poll.output) ++ front ++ e :: back ∧
    (e.readies = none → back = []) ∧
    ∀ session, e.readies = some session → ∀ x ∈ front, x.messageOf ≠ some session

variable {g : GameRuntime}

theorem quiet_carryOver (hp : g.poll = some p) : Quiet g (g.carryOver p) := by
  obtain ⟨ht, hs⟩ := RangeRuntimeState.drainCompleted_spec g.range p.output p.capacity
  refine ⟨⟨rfl, ht, ?_⟩, ?_⟩
  · unfold pipeline
    rw [hp]
    rfl
  · unfold stream
    rw [hp]
    change g.returned ++ (g.range.drainCompleted p.output p.capacity).2 ++
      (g.range.drainCompleted p.output p.capacity).1.backlog = g.returned ++ p.output ++ _
    rw [List.append_assoc, hs, List.append_assoc]

theorem quiet_turn (hp : g.poll = some p) (hb : p'.batch = p.batch) (ho : p'.output = p.output) :
    Quiet g { g with poll := some p' } := by
  refine ⟨⟨rfl, .refl _, ?_⟩, ?_⟩
  · unfold pipeline
    rw [hp]
    change p'.batch ++ _ = p.batch ++ _
    rw [hb]
  · unfold stream
    rw [hp]
    change g.returned ++ p'.output ++ _ = g.returned ++ p.output ++ _
    rw [ho]

theorem fitting_prefix (bytes : ℕ) : ∀ (capacity : ℕ) (l : List Core.Event),
    NetworkRuntime.fitting bytes capacity l ++
      l.drop (NetworkRuntime.fitting bytes capacity l).length = l
  | 0, l => by cases l <;> rfl
  | capacity + 1, [] => rfl
  | capacity + 1, event :: l => by
    unfold NetworkRuntime.fitting
    split_ifs
    · rw [List.length_cons, List.drop_succ_cons, List.cons_append, fitting_prefix]
    · rfl
  termination_by capacity _ => capacity

theorem quiet_fetch (capacity : ℕ) (hp : g.poll = some p) (he : p.batch = [])
    (hb : p'.batch = (g.pollNetworkWithBudget capacity).2) (ho : p'.output = p.output) :
    Quiet g { (g.pollNetworkWithBudget capacity).1 with poll := some p' } := by
  refine ⟨⟨rfl, .refl _, ?_⟩, ?_⟩
  · unfold pipeline
    rw [hp]
    change p'.batch ++ _ = p.batch ++ _
    rw [hb, he]
    exact fitting_prefix _ _ _
  · unfold stream
    rw [hp]
    change g.returned ++ p'.output ++ g.range.backlog = g.returned ++ p.output ++ _
    rw [ho]

theorem quiet_begin (hp : g.poll = none) (capacity : ℕ) :
    Quiet g { g with poll := some ⟨capacity, [], 0, [], false, .flushing⟩ } := by
  refine ⟨⟨rfl, .refl _, ?_⟩, ?_⟩
  · unfold pipeline
    rw [hp]
    rfl
  · unfold stream
    rw [hp]
    rfl

theorem quiet_endPoll (hp : g.poll = some p) (he : p.batch = []) :
    Quiet g (g.endPoll p.output) := by
  refine ⟨⟨rfl, .refl _, ?_⟩, ?_⟩
  · unfold pipeline
    rw [hp]
    change _ = p.batch ++ _
    rw [he]
    rfl
  · unfold stream
    rw [hp]
    change g.returned ++ p.output ++ [] ++ _ = _
    rw [List.append_nil]
    rfl

theorem stages_stage (outcome : Option GameEvent) (hp : g.poll = some p) :
    Stages outcome g { (g.stage p outcome).1 with poll := some (g.stage p outcome).2 } := by
  have hpi : ∀ r p', p'.batch = p.batch →
      pipeline { g with range := r, poll := some p' } = pipeline g := by
    intro r p' hba
    unfold pipeline
    rw [hp]
    exact congrArg (· ++ g.network.shared.events) hba
  rcases outcome with - | e
  · obtain ⟨hta, hst⟩ := RangeRuntimeState.drainCompleted_spec g.range p.output p.capacity
    refine ⟨⟨rfl, hta, hpi _ _ rfl⟩, fun _ => ?_, nofun⟩
    unfold stream
    rw [hp]
    change g.returned ++ (g.range.drainCompleted p.output p.capacity).2 ++
      (g.range.drainCompleted p.output p.capacity).1.backlog = g.returned ++ p.output ++ _
    rw [List.append_assoc, hst, List.append_assoc]
  · -- Staging drains twice, which moves events from the backlog to the output and nothing else.
    have hdr : ∀ r output,
        RangeRuntimeState.SameTables r
          ((r.drainCompleted output p.capacity).1.drainCompleted
            (r.drainCompleted output p.capacity).2 p.capacity).1 ∧
        ((r.drainCompleted output p.capacity).1.drainCompleted
            (r.drainCompleted output p.capacity).2 p.capacity).2 ++
          ((r.drainCompleted output p.capacity).1.drainCompleted
            (r.drainCompleted output p.capacity).2 p.capacity).1.backlog = output ++ r.backlog := by
      intro r output
      obtain ⟨ht, hs⟩ := RangeRuntimeState.drainCompleted_spec r output p.capacity
      obtain ⟨ht', hs'⟩ := RangeRuntimeState.drainCompleted_spec
        (r.drainCompleted output p.capacity).1 (r.drainCompleted output p.capacity).2 p.capacity
      exact ⟨ht.trans ht', hs'.trans hs⟩
    by_cases hd : (decide (p.capacity ≤ p.output.length) || !g.range.completed.isEmpty) = true
    · obtain ⟨front, back, hsp, he, hbac, hf⟩ :=
        RangeRuntimeState.enqueue_spec e g.range.completed
      obtain ⟨hta, hst⟩ := hdr { g.range with
        publicMessages := g.range.publicMessages + 1
        publicBytes := g.range.publicBytes + e.payloadBytes
        completed := RangeRuntimeState.enqueue e g.range.completed } p.output
      simp only [GameRuntime.stage, RangeRuntimeState.queuePublic, hd, if_true]
      refine ⟨⟨rfl, ⟨hta.serverEndpoints, hta.clientEndpoints, hta.sessions⟩,
        hpi _ _ rfl⟩, nofun, ?_⟩
      intro e' he'
      cases he'
      refine ⟨front.map CompletedEvent.event, back.map CompletedEvent.event, ?_, ?_, ?_, ?_⟩
      · unfold RangeRuntimeState.backlog
        rw [hsp, List.map_append]
      · rw [hp]
        refine (List.append_assoc _ _ _).trans ((congrArg (g.returned ++ ·) hst).trans ?_)
        change g.returned ++ (p.output ++ (RangeRuntimeState.enqueue e g.range.completed).map
          CompletedEvent.event) = g.returned ++ p.output ++ _ ++ _
        rw [he, List.map_append, List.append_assoc, List.append_assoc]
        rfl
      · intro hr
        rw [hbac hr]
        rfl
      · intro session hr x hx
        obtain ⟨c, hc, rfl⟩ := List.mem_map.mp hx
        exact hf session hr c hc
    · obtain ⟨hta, hst⟩ := hdr g.range (p.output ++ [e])
      simp only [GameRuntime.stage, RangeRuntimeState.queuePublic, hd, Bool.false_eq_true,
        if_false]
      have hem : g.range.completed = [] := by
        simp only [Bool.or_eq_true, Bool.not_eq_true', not_or, Bool.not_eq_false,
          List.isEmpty_iff] at hd
        exact hd.2
      have hb : g.range.backlog = [] := by
        unfold RangeRuntimeState.backlog
        rw [hem]
        rfl
      refine ⟨⟨rfl, hta, hpi _ _ rfl⟩, nofun, ?_⟩
      intro e' he'
      cases he'
      refine ⟨[], [], hb, ?_, fun _ => rfl, fun _ _ _ hx => absurd hx List.not_mem_nil⟩
      rw [hp]
      refine (List.append_assoc _ _ _).trans ((congrArg (g.returned ++ ·) hst).trans ?_)
      change g.returned ++ (p.output ++ [e] ++ g.range.backlog) = g.returned ++ p.output ++ [] ++ [e]
      rw [hb, List.append_nil, List.append_nil, List.append_assoc]

def popped (g : GameRuntime) (p : Poll) (rest : List Core.Event) : GameRuntime :=
  { g with poll := some { p with batch := rest } }

theorem stages_advance (env : Env) (hp : g.poll = some p) (hb : p.batch = event :: rest) :
    Stages (resolve event (convertEvent env (popped g p rest) event)).2 (resolve event (convertEvent
      env (popped g p rest) event)).1 (GameRuntime.step g (.advance env)) := by
  have hpo : (resolve event (convertEvent env (popped g p rest) event)).1.poll =
      some { p with batch := rest } := by
    have hc := (converts_convertEvent env (popped g p rest) event).poll
    unfold resolve
    split
    · exact hc
    · split_ifs <;> exact hc
  have hs : GameRuntime.step g (.advance env) = { (GameRuntime.convertNext env (popped g p rest)
      { p with batch := rest } event).1 with
      poll := some
        (GameRuntime.convertNext env (popped g p rest) { p with batch := rest } event).2 } := by
    simp only [GameRuntime.step, hp, GameRuntime.advance, hb]
    rfl
  rw [hs]
  exact stages_stage _ hpo

/-! ### Calls of the application -/

/-- **What issuing a ticket does**: nothing is registered, or a ticket is and is sent, or a ticket is
registered and taken back. -/
inductive Issues (g : GameRuntime) (session : Handle) : GameRuntime → Result Unit → Prop
  | refused {tickets : ResumeRegistry} (e : RnetError)
      (htickets : ResumeRegistry.Loses g.resume.tickets tickets) :
      Issues g session { g with resume := { g.resume with tickets := tickets } } (.error e)
  | sent {tickets : ResumeRegistry} {nonce : Nonce} {tag : Tag} {entry : TicketEntry}
      {info : ServerSessionMeta} {g' : GameRuntime}
      (htickets : ResumeRegistry.Loses g.resume.tickets tickets)
      (hfresh : tickets.entries.lookup nonce = none) (hold : entry.oldSession = session)
      (hwithout : ResumeRegistry.Coherent g.resume.tickets → tickets.Without session)
      (hserver : g.resume.serverSessions.lookup session = some info)
      (hsent : Sent .resume session (nonce.bytes ++ tag.bytes)
        { g with resume := { g.resume with tickets := tickets.register nonce entry } } g' (.ok ())) :
      Issues g session g' (.ok ())
  | undone {tickets : ResumeRegistry} {nonce : Nonce} {entry : TicketEntry} (e : RnetError)
      (htickets : ResumeRegistry.Loses g.resume.tickets tickets)
      (hfresh : tickets.entries.lookup nonce = none) (hold : entry.oldSession = session)
      (hwithout : ResumeRegistry.Coherent g.resume.tickets → tickets.Without session) :
      Issues g session { g with resume := { g.resume with
        tickets := (tickets.register nonce entry).remove nonce } } (.error e)

theorem issues_issueResumeTicket (g : GameRuntime) (env : Env) (draws : ℕ → Option Nonce)
    (session : Handle) (identity : Bytes) :
    Issues g session (g.issueResumeTicket env draws session identity).1
      (g.issueResumeTicket env draws session identity).2 := by
  have hsa : ∀ e, Issues g session g (.error e) := fun e => .refused e (.refl _)
  unfold issueResumeTicket
  split
  · exact hsa _
  split
  · exact hsa _
  rename_i endpoint how
  split
  · exact hsa _
  rename_i info hi
  rcases ResumeRegistry.issue_frame g.resume.tickets
    ⟨endpoint, session, info.peerKey, info.protocol⟩ identity env.now g.resume.ttl draws with
    ⟨e, he, hl⟩ |
    ⟨nonce, tag, entry, tickets, hl, ho, hwi, hf, hr, ht⟩
  · simp only [he]
    exact .refused e hl
  simp only [ht, hr]
  have hs := sent_sendControl env
    { g with resume := { g.resume with tickets := tickets.register nonce entry } }
    .resume session (nonce.bytes ++ tag.bytes)
  split
  · rename_i hok
    rw [hok] at hs
    exact .sent hl hf ho hwi hi hs
  · rename_i e he
    rw [he] at hs
    rw [hs.same]
    have hu := Issues.undone (g := g) e hl hf ho hwi
    rw [← ResumeRegistry.revokeTicket_append _ nonce tag] at hu
    exact hu

/-- Envelope of an application message. -/
inductive Encodes (g : GameRuntime) (session : Handle) : Bytes → Prop
  | udp {m : Outgoing} {next : UInt32} {envelope : Bytes}
      (htracked : g.udpSessions.lookup session = some next)
      (hencoded : encodeUdpApplication m.payload m.sequence m.tick next g.maximumEnvelopeLen =
        .ok envelope) : Encodes g session envelope
  | plain {m : Outgoing} {envelope : Bytes} (htracked : g.udpSessions.lookup session = none)
      (hencoded : encodeApplication m.payload m.sequence m.tick g.maximumEnvelopeLen =
        .ok envelope) : Encodes g session envelope

/-- **What forwarding staged data does.** -/
structure Flushed (g g' : GameRuntime) : Prop where
  core : g' = { g with
    network := { g.network with data := g'.network.data }
    udpSessions := g'.udpSessions
    scheduled := g'.scheduled
    realtime := g'.realtime }
  scheduled : ∀ m ∈ g'.scheduled, m ∈ g.scheduled
  realtime : Sub g'.realtime g.realtime
  udp : ∀ session, (g'.udpSessions.lookup session).isSome = (g.udpSessions.lookup session).isSome
  data : g'.network.data = g.network.data ∨ ∃ session envelope,
    g'.network.data = g.network.data ++ [(session, envelope)] ∧
      (g.admission.lookup session).isSome ∧ Encodes g session envelope

theorem Flushed.refl (g : GameRuntime) : Flushed g g :=
  ⟨rfl, fun _ h => h, .refl _, fun _ => rfl, .inl rfl⟩

variable {session : Handle} {guard : GameRuntime → Input → Prop}

theorem admission_of_ensureGameReady (h : ensureGameReady g session = .ok ()) :
    (g.admission.lookup session).isSome := by
  unfold ensureGameReady at h
  split_ifs at h with hr
  · exact hr
  · split at h <;> cases h

theorem sendWithOptions_cases (n : NetworkRuntime) (channel : Channel) (session : Handle)
    (payload : Bytes) (correlationId : UInt64) :
    (∃ e, n.sendWithOptions channel session payload correlationId = (n, .error e)) ∨
      n.sendWithOptions channel session payload correlationId =
        ({ n with data := n.data ++ [(session, payload)] }, .ok ()) := by
  unfold NetworkRuntime.sendWithOptions
  split
  · exact .inl ⟨_, rfl⟩
  · exact .inr rfl

theorem flushed_sendGameApplication (env : Env) (g : GameRuntime) (session : Handle) (m : Outgoing) :
    Flushed g (sendGameApplication env g session m).1 := by
  unfold sendGameApplication
  split
  · exact .refl g
  rename_i hr
  have ha := admission_of_ensureGameReady hr
  split
  · rename_i next hn
    split
    · exact .refl g
    rename_i envelope hen
    rcases sendWithOptions_cases g.network (env.channel session) session envelope
      m.correlationId with ⟨e, he⟩ | hs
    · rw [he]
      exact .refl g
    rw [hs]
    refine ⟨rfl, fun _ h => h, .refl _, fun other => ?_,
      .inr ⟨session, envelope, rfl, ha, .udp hn hen⟩⟩
    rw [lookup_insert_ite]
    split_ifs with heq
    · rw [heq, hn]
      rfl
    · rfl
  · rename_i hno
    split
    · exact .refl g
    rename_i envelope hen
    rcases sendWithOptions_cases g.network (env.channel session) session envelope
      m.correlationId with ⟨e, he⟩ | hs
    · rw [he]
      exact .refl g
    rw [hs]
    exact ⟨rfl, fun _ h => h, .refl _, fun _ => rfl,
      .inr ⟨session, envelope, rfl, ha, .plain hno hen⟩⟩

theorem flushed_flushScheduled (env : Env) (g : GameRuntime) (index : ℕ) (expired : Bool) :
    Flushed g (flushScheduled env g index expired) := by
  unfold flushScheduled
  split
  · exact .refl g
  rename_i session m hfo
  have hi := List.mem_of_getElem? hfo
  have hp : ∀ x ∈ g.scheduled.eraseIdx index, x ∈ g.scheduled :=
    fun x hx => List.mem_of_mem_eraseIdx hx
  dsimp only
  split_ifs
  · exact ⟨rfl, hp, .refl _, fun _ => rfl, .inl rfl⟩
  have hs := flushed_sendGameApplication env
    { g with scheduled := g.scheduled.eraseIdx index } session m
  have hf : Flushed g (sendGameApplication env
      { g with scheduled := g.scheduled.eraseIdx index } session m).1 := by
    refine ⟨?_, fun x hx => hp x (hs.scheduled x hx), hs.realtime, hs.udp, ?_⟩
    · rw [hs.core]
    rcases hs.data with hd | ⟨s, envelope, hd, ha, hen⟩
    · exact .inl hd
    refine .inr ⟨s, envelope, hd, ha, ?_⟩
    cases hen with
    | udp ht he => exact .udp ht he
    | plain ht he => exact .plain ht he
  split
  · exact hf
  split_ifs
  · refine ⟨?_, ?_, hf.realtime, hf.udp, hf.data⟩
    · rw [hs.core]
    intro x hx
    rcases List.mem_append.mp hx with hx | hx
    · exact hf.scheduled x hx
    · rw [List.mem_singleton.mp hx]
      exact hi
  · exact hf

theorem flushed_flushRealtime (env : Env) (g : GameRuntime) (key : Handle × UInt64) (room : Bool) :
    Flushed g (flushRealtime env g key room) := by
  unfold flushRealtime
  split
  · exact .refl g
  rename_i m hfo
  have hs := flushed_sendGameApplication env { g with realtime := g.realtime.erase key } key.1 m
  have hf : Flushed g
      (sendGameApplication env { g with realtime := g.realtime.erase key } key.1 m).1 := by
    refine ⟨?_, hs.scheduled, hs.realtime.trans (.erase _ _), hs.udp, ?_⟩
    · rw [hs.core]
    rcases hs.data with hd | ⟨s, envelope, hd, ha, hen⟩
    · exact .inl hd
    refine .inr ⟨s, envelope, hd, ha, ?_⟩
    cases hen with
    | udp ht he => exact .udp ht he
    | plain ht he => exact .plain ht he
  dsimp only
  split
  · exact hf
  split_ifs
  · refine ⟨?_, hf.scheduled, ?_, hf.udp, hf.data⟩
    · rw [hs.core]
    intro k v hk
    rw [lookup_insert_ite] at hk
    split_ifs at hk with heq
    · cases hk
      rw [heq, hfo]
    · exact hf.realtime k v hk
  · exact hf

theorem admits_spec (h : g.admits session payload full room = .ok ()) :
    (g.admission.lookup session).isSome ∧ Live g.network session := by
  unfold admits at h
  split at h
  · cases h
  rename_i hr
  split at h
  · cases h
  · rename_i hv
    exact ⟨admission_of_ensureGameReady hr, live_of_validate hv⟩

theorem sheds_closeSession (g : GameRuntime) (session : Handle) :
    ∃ gone, Sheds gone g (g.closeSession session).1 := by
  obtain ⟨gone, hre⟩ := sheds_revokeResumeSession g session
  have hc := closes_closeSession (g.revokeResumeSession session).network session .cancelled
  unfold GameRuntime.closeSession
  dsimp only
  split
  · rename_i network e hr
    rw [hr] at hc
    exact ⟨gone ++ [], hre.trans (.of_network hc.1 hc.2)⟩
  · rename_i network hr
    rw [hr] at hc
    exact ⟨gone ++ [] ++ [session], (hre.trans (.of_network hc.1 hc.2)).trans
      (sheds_forgetReadySession _ session)⟩

def withEndpoint (n : NetworkRuntime) (native : NativeEndpoint) (join : Option Bytes) :
    NetworkRuntime :=
  { n with
    endpoints := n.endpoints.insert n.nextEndpoint native
    joins := join.elim n.joins fun payload => n.joins.insert n.nextEndpoint payload
    nextEndpoint := n.nextEndpoint + 1 }

def withListener (g : GameRuntime) (transport : Transport) (protocol : GameProtocol) : GameRuntime :=
  { g with
    network := withEndpoint g.network ⟨true, transport, false⟩ none
    range := { g.range with
      serverEndpoints := g.range.serverEndpoints.insert g.network.nextEndpoint protocol }
    endpointTransports := g.endpointTransports.insert g.network.nextEndpoint transport }

theorem openEndpoint_cases (n : NetworkRuntime) (server : Bool) (transport : Transport)
    (join : Option Bytes) (opened : Result Unit) :
    (∃ e, n.openEndpoint server transport join opened = (n, .error e)) ∨
      n.openEndpoint server transport join opened =
        (withEndpoint n ⟨server, transport, false⟩ join, .ok n.nextEndpoint) := by
  unfold NetworkRuntime.openEndpoint
  split
  · exact .inl ⟨_, rfl⟩
  split
  · exact .inl ⟨_, rfl⟩
  · exact .inr rfl

theorem listen_cases (g : GameRuntime) (transport : Transport) (protocol : GameProtocol)
    (opened : Result Unit) : (g.listen transport protocol opened).1 = g ∨
      protocol.isValid = true ∧
        (g.listen transport protocol opened).1 = withListener g transport protocol := by
  unfold GameRuntime.listen
  split_ifs with hv
  · exact .inl rfl
  rcases openEndpoint_cases g.network true transport none opened with ⟨e, he⟩ | ho
  · rw [he]
    exact .inl rfl
  · rw [ho]
    exact .inr ⟨Bool.not_eq_false _ ▸ hv, rfl⟩

def withConnection (g : GameRuntime) (c : Connection) (nonce : Nonce) (payload : Bytes) :
    GameRuntime :=
  { g with
    network := withEndpoint g.network ⟨false, c.transport, false⟩ (some payload)
    endpointTransports := g.endpointTransports.insert g.network.nextEndpoint c.transport
    resume := { g.resume with
      clientEndpoints := c.resume.elim g.resume.clientEndpoints fun r =>
        g.resume.clientEndpoints.insert g.network.nextEndpoint r.1 }
    range := { g.range with
      clientEndpoints := g.range.clientEndpoints.insert g.network.nextEndpoint ⟨c.protocol, nonce⟩ } }

structure Offers (g : GameRuntime) (c : Connection) (nonce : Nonce) (payload : Bytes) : Prop where
  protocol : c.protocol.isValid = true
  nonzero : nonce ≠ .zero
  resume : ∀ r ∈ c.resume, r.1 ≠ 0 ∧ r.2.length = ticketLen
  encoded : encodeRange ⟨c.protocol, nonce, c.joinTicket, c.resume.map Prod.snd⟩
    (min g.maximumEnvelopeLen (60 * 1024)) = .ok payload

theorem connect_cases (g : GameRuntime) (c : Connection) :
    (g.connect c).1 = g ∨ ∃ nonce payload, Offers g c nonce payload ∧
      (g.connect c).1 = withConnection g c nonce payload := by
  unfold GameRuntime.connect
  by_cases hre : c.resume.any (fun r => r.1 = 0 || r.2.length ≠ ticketLen) = true
  · rw [if_pos hre]
    exact .inl rfl
  rw [if_neg hre]
  by_cases hv : c.protocol.isValid = false
  · rw [if_pos hv]
    exact .inl rfl
  rw [if_neg hv]
  split
  · exact .inl rfl
  rename_i nonce _
  by_cases hz : nonce = .zero
  · rw [if_pos hz]
    exact .inl rfl
  rw [if_neg hz]
  split
  · exact .inl rfl
  rename_i payload hen
  rcases openEndpoint_cases g.network false c.transport (some payload) c.opened with
    ⟨e, he⟩ | ho
  · rw [he]
    exact .inl rfl
  rw [ho]
  refine .inr ⟨nonce, payload, ⟨Bool.not_eq_false _ ▸ hv, hz, ?_, hen⟩, rfl⟩
  intro r hr
  rw [Option.mem_def.mp hr, Option.any_some] at hre
  simpa using hre

/-! ### The step rule -/

/-- What the calls of the application and the actions of the workers keep. -/
structure CallKeeps (guard : GameRuntime → Input → Prop) (I : GameRuntime → Prop) : Prop
    extends Maintained I where
  listened : ∀ {g transport protocol opened}, I g → guard g (.listen transport protocol opened) →
    protocol.isValid = true → I (withListener g transport protocol)
  connected : ∀ {g c nonce payload}, I g → guard g (.connect c) → Offers g c nonce payload →
    I (withConnection g c nonce payload)
  decided : ∀ {g session accept expired}, I g → guard g (.authDecide session accept expired) →
    I { g with network := (g.network.authDecide session accept expired).1 }
  issued : ∀ {g env draws session identity g' r}, I g →
    guard g (.issueResumeTicket env draws session identity) → Issues g session g' r → I g'
  scheduled : ∀ {g session message}, I g → (g.admission.lookup session).isSome →
    Live g.network session → I { g with scheduled := g.scheduled ++ [(session, message)] }
  latest : ∀ {g session key message}, I g → (g.admission.lookup session).isSome →
    Live g.network session → I { g with realtime := g.realtime.insert (session, key) message }
  flushed : ∀ {g g'}, I g → Flushed g g' → I g'
  ended : ∀ {g n}, I g → NetEnds g.network n → I { g with network := n }
  stopped : ∀ {g}, I g → I g.stop
  accepted : ∀ {g endpoint peer peerKey join room}, I g →
    guard g (.accept endpoint peer peerKey join room) →
    I { g with network := g.network.accept endpoint peer peerKey join room }
  joined : ∀ {g endpoint peer}, I g → guard g (.join endpoint peer) →
    I { g with network := g.network.join endpoint peer }
  established : ∀ {g session room}, I g → guard g (.establish session room) →
    I { g with network := g.network.establish session room }
  delivered : ∀ {g session delivery room}, I g → guard g (.deliver session delivery room) →
    I { g with network := g.network.deliver session delivery room }
  announced : ∀ {g event endpoint}, I g →
    I { g with network := announceEndpoint g.network event endpoint }
  lost : ∀ {g index}, I g → guard g (.lose index) → I { g with network := g.network.lose index }

def polls : Input → Bool
  | .poll _ | .advance _ => true
  | _ => false

theorem CallKeeps.step (h : CallKeeps guard I) (hI : I g) (hg : guard g input)
    (hca : polls input = false) : I (GameRuntime.step g input) := by
  cases input with
  | listen transport protocol opened =>
    simp only [GameRuntime.step]
    rcases listen_cases g transport protocol opened with hsa | ⟨hv, hli⟩
    · rw [hsa]
      exact hI
    · rw [hli]
      exact h.listened hI hg hv
  | connect connection =>
    simp only [GameRuntime.step]
    rcases connect_cases g connection with hsa | ⟨nonce, payload, ho, hc⟩
    · rw [hsa]
      exact hI
    · rw [hc]
      exact h.connected hI hg ho
  | authDecide session accept expired =>
    have hd := h.decided hI hg
    simp only [GameRuntime.step, GameRuntime.authDecide]
    split
    · rename_i network e hr
      rw [hr] at hd
      exact hd
    · rename_i network hr
      rw [hr] at hd
      split_ifs
      · exact hd
      · exact h.shed hd (sheds_forgetReadySession _ session)
  | issueResumeTicket env draws session identity =>
    exact h.issued hI hg (issues_issueResumeTicket g env draws session identity)
  | send session message room =>
    simp only [GameRuntime.step, sendScheduled]
    split
    · exact hI
    rename_i ha
    obtain ⟨hre, hl⟩ := admits_spec ha
    exact h.scheduled hI hre hl
  | sendLatest session key payload tick room =>
    simp only [GameRuntime.step, GameRuntime.sendLatest]
    split
    · exact hI
    rename_i ha
    obtain ⟨hre, hl⟩ := admits_spec ha
    exact h.latest hI hre hl
  | flush env index expired =>
    simp only [GameRuntime.step]
    split_ifs
    · exact h.flushed hI (flushed_flushScheduled env g index expired)
    · exact hI
  | flushLatest env key room =>
    simp only [GameRuntime.step]
    split_ifs
    · exact h.flushed hI (flushed_flushRealtime env g key room)
    · exact hI
  | closeSession session =>
    simp only [GameRuntime.step]
    split_ifs
    · exact hI
    · obtain ⟨gone, hs⟩ := sheds_closeSession g session
      exact h.shed hI hs
  | closeEndpoint endpoint =>
    simp only [GameRuntime.step]
    split_ifs
    · exact hI
    have he := h.ended hI (netEnds_closeEndpoint g.network endpoint)
    simp only [GameRuntime.closeEndpoint]
    split
    · rename_i network e hr
      rw [hr] at he
      exact he
    · rename_i network hr
      rw [hr] at he
      obtain ⟨gone, hs⟩ := sheds_forgetEndpointState { g with network := network } endpoint
      exact h.shed he hs
  | stop =>
    simp only [GameRuntime.step]
    split_ifs
    · exact hI
    · exact h.stopped hI
  | accept endpoint peer peerKey join room => exact h.accepted hI hg
  | join endpoint peer => exact h.joined hI hg
  | establish session room => exact h.established hI hg
  | deliver session delivery room => exact h.delivered hI hg
  | drop session reason joining => exact h.ended hI (netEnds_drop g.network session reason joining)
  | failEndpoint endpoint initialClient reason =>
    exact h.ended hI (netEnds_failEndpoint g.network endpoint initialClient reason)
  | announce event endpoint => exact h.announced hI
  | lose index => exact h.lost hI hg
  | poll capacity | advance env => cases hca

/-- **What a step keeps**: `I` between steps, `M` while the outcome of a conversion is not staged. -/
structure Keeps (guard : GameRuntime → Input → Prop) (I : GameRuntime → Prop)
    (M : GameRuntime → Result (Option GameEvent) → Prop) : Prop extends CallKeeps guard I where
  quiet : ∀ {g g'}, I g → Quiet g g' → I g'
  converted : ∀ {g p event rest env g' r}, I g → g.poll = some p → p.batch = event :: rest →
    guard g (.advance env) →
    Converts env { g with poll := some { p with batch := rest } } event g' r → M g' r
  violated : ∀ {g endpoint session e}, M g (.error e) →
    M (g.closeRoute session .protocolError) (.ok (some (.protocolViolation endpoint session)))
  ignored : ∀ {g endpoint session e}, M g (.error e) →
    M g (.ok (some (.protocolViolation endpoint session)))
  staged : ∀ {g outcome g'}, M g (.ok outcome) → Stages outcome g g' → I g'

/-- What a step keeps that does not look at the returned events. -/
structure TableKeeps (guard : GameRuntime → Input → Prop) (I : GameRuntime → Prop) : Prop
    extends CallKeeps guard I where
  same : ∀ {g g'}, I g → Same g g' → I g'
  converted : ∀ {g p event rest env g' r}, I g → g.poll = some p → p.batch = event :: rest →
    guard g (.advance env) →
    Converts env { g with poll := some { p with batch := rest } } event g' r → I g'

theorem TableKeeps.keeps (h : TableKeeps guard I) : Keeps guard I fun g _ => I g :=
  { toCallKeeps := h.toCallKeeps
    quiet := fun hI hq => h.same hI hq.toSame
    converted := h.converted
    violated := fun hI => h.shed hI (sheds_closeRoute _ _ _)
    ignored := id
    staged := fun hI hs => h.same hI hs.toSame }

namespace Keeps

variable {guard : GameRuntime → Input → Prop} {I : GameRuntime → Prop}
  {M : GameRuntime → Result (Option GameEvent) → Prop} (h : Keeps guard I M)

include h

theorem convertNext (hI : I g)
    (hp : g.poll = some p) (hb : p.batch = event :: rest) (hg : guard g (.advance env)) :
    I { (GameRuntime.convertNext env { g with poll := some { p with batch := rest } }
          { p with batch := rest } event).1 with
        poll := some (GameRuntime.convertNext env { g with poll := some { p with batch := rest } }
          { p with batch := rest } event).2 } := by
  have hc := converts_convertEvent env { g with poll := some { p with batch := rest } } event
  have hM := h.converted hI hp hb hg hc
  have hpo := hc.poll
  unfold GameRuntime.convertNext resolve
  split
  · rename_i outcome ho
    rw [ho] at hM
    exact h.staged hM (stages_stage _ hpo)
  · rename_i e he
    rw [he] at hM
    split_ifs
    · exact h.staged (h.violated hM) (stages_stage _ hpo)
    · exact h.staged (h.ignored hM) (stages_stage _ hpo)

theorem advance (hI : I g) (hp : g.poll = some p) (hg : guard g (.advance env)) :
    I (GameRuntime.advance env g p) := by
  have hm : ∀ {g}, I g → g.poll = some p →
      I (GameRuntime.maintain env g) ∧ (GameRuntime.maintain env g).poll = some p := by
    intro g hI hp
    refine ⟨h.maintain env hI, ?_⟩
    have hpo : Maintained fun g' => g'.poll = some p :=
      { shed := fun h hs => hs.poll.trans h
        sent := fun h _ hs => hs.poll.trans h
        rescheduled := fun _ h => h
        repeated := fun h _ _ hs => hs.poll.trans h }
    exact hpo.maintain env hp
  unfold GameRuntime.advance
  split
  · rename_i event rest hb
    exact h.convertNext hI hp hb hg
  rename_i hb
  split
  · exact h.quiet hI (quiet_carryOver hp)
  · unfold drainTurn
    split_ifs
    · exact h.quiet hI (quiet_turn hp rfl rfl)
    dsimp only
    split_ifs with hn
    · exact h.quiet hI (quiet_fetch _ hp hb (hb.trans hn.symm) rfl)
    · exact h.quiet hI (quiet_fetch _ hp hb rfl rfl)
  · split_ifs with hr hf hi
    · obtain ⟨hI', hp'⟩ := hm hI hp
      exact h.quiet hI' (quiet_endPoll hp' hb)
    · obtain ⟨hI', hp'⟩ := hm hI hp
      have he : p.output = [] := not_not.mp fun hne => hr (.inr hne)
      have hq := quiet_endPoll hp' hb
      rw [he] at hq
      exact h.quiet hI' hq
    · obtain ⟨hI', hp'⟩ := hm hI hp
      exact h.quiet hI' (quiet_turn hp' rfl rfl)
    · exact h.quiet hI (quiet_turn hp rfl rfl)
  · obtain ⟨hI', hp'⟩ := hm hI hp
    exact h.quiet hI' (quiet_turn hp' rfl rfl)
  · exact h.reap (h.quiet hI (quiet_fetch _ hp hb rfl rfl))
  obtain ⟨hI', hp'⟩ := hm hI hp
  split_ifs
  · exact h.quiet hI' (quiet_endPoll hp' hb)
  · exact h.quiet hI' (quiet_turn hp' rfl rfl)

/-- **Every guarded step keeps the property.** -/
theorem step (hI : I g) (hg : guard g input) : I (GameRuntime.step g input) := by
  cases input with
  | poll capacity =>
    simp only [GameRuntime.step]
    split_ifs with hpo
    · exact hI
    obtain ⟨gone, hs⟩ := sheds_reapClosedEndpoints g
    have hn : g.reapClosedEndpoints.poll = none :=
      hs.poll.trans (Option.not_isSome_iff_eq_none.mp hpo)
    exact h.quiet (h.reap hI) (quiet_begin hn capacity)
  | advance env =>
    simp only [GameRuntime.step]
    split
    · exact hI
    · rename_i p hp
      exact h.advance hI hp hg
  | _ => exact h.toCallKeeps.step hI hg rfl

end Keeps

end Rnet.Game.Steps
