import Rnet.Game.Takeover

/-! # What outlives a route

The game layer learns of the end of a route from the transport's notification and cleans up when it
converts it. So in every run in which no such notification is lost, a session without a route that
no notification is pending for is in none of the tables: not in the admission, the owners, the
trackers, the negotiations, the staging queues or the claims of resumption. The bounded queue
refuses a notification when it holds nothing it may evict, and then the tables keep the session for
ever. -/

namespace Rnet.Game.Residue

open Rnet.Core Lib.BigEndian Lib.FiniteMap Lib.GuardedRun
open Transport.Config (RuntimeConfig)
open Envelope (ControlKind)
open Join Event RangeState Resume Network Game.Runtime Game.Runtime.GameRuntime Cleanup Workers
open Conversion Steps Tickets Takeover

/-! ### Notifications -/

def Alive (n : NetworkRuntime) (session : Handle) : Prop :=
  (n.shared.sessions.lookup session).isSome = true

variable {n : NetworkRuntime} {session s : Handle}

theorem ne_of_live (hl : Live n session) (hd : ¬Alive n s) : s ≠ session := by
  rintro rfl
  obtain ⟨-, route, hr, -⟩ := hl
  exact hd (by unfold Alive; rw [hr]; rfl)

def Closing (l : List Core.Event) (session : Handle) : Prop :=
  ∃ e ∈ l, e.eventType = .sessionClosed ∧ e.session = session

theorem Closing.append_left (h : Closing l session) (l' : List Core.Event) :
    Closing (l ++ l') session := by
  obtain ⟨e, he, hc⟩ := h
  exact ⟨e, List.mem_append_left _ he, hc⟩

theorem Closing.append_right (h : Closing l' session) (l : List Core.Event) :
    Closing (l ++ l') session := by
  obtain ⟨e, he, hc⟩ := h
  exact ⟨e, List.mem_append_right _ he, hc⟩

/-- A request for authorization is of a session that has a route or whose end is announced behind
it. -/
def Followed (alive : Handle → Prop) : List Core.Event → Prop
  | [] => True
  | e :: l => (e.eventType = .authRequest → alive e.session ∨ Closing l e.session) ∧ Followed alive l

namespace Followed

variable {alive alive' : Handle → Prop}

theorem of_quiet : ∀ {l : List Core.Event}, (∀ e ∈ l, e.eventType ≠ .authRequest) → Followed alive l
  | [], _ => trivial
  | e :: _, h => ⟨fun ha => absurd ha (h e List.mem_cons_self),
      of_quiet fun e' he' => h e' (List.mem_cons_of_mem _ he')⟩

theorem append (hn : Followed alive' new) (hg : ∀ s, alive s → alive' s ∨ Closing new s) :
    ∀ {l}, Followed alive l → Followed alive' (l ++ new)
  | [], _ => hn
  | e :: l, h => by
    refine ⟨fun hau => ?_, append hn hg h.2⟩
    rcases h.1 hau with ha | hcl
    · exact (hg e.session ha).imp_right fun hc => hc.append_right l
    · exact .inr (hcl.append_left new)

theorem closing_eraseIdx :
    ∀ {l index}, (l[index]?).all (fun e => e.eventType ≠ .sessionClosed) =
      true → Closing l session → Closing (l.eraseIdx index) session
  | [], _, _, h => h
  | e :: l, 0, hk, ⟨c, hc, hcl⟩ => by
    rcases List.mem_cons.mp hc with rfl | hc
    · exact absurd hcl.1 (by simpa using hk)
    · exact ⟨c, hc, hcl⟩
  | e :: l, index + 1, hk, ⟨c, hc, hcl⟩ => by
    rcases List.mem_cons.mp hc with rfl | hc
    · exact ⟨c, List.mem_cons_self, hcl⟩
    have ht : Closing l session := ⟨c, hc, hcl⟩
    obtain ⟨c', hc', hcl'⟩ := closing_eraseIdx (l := l) hk ht
    exact ⟨c', List.mem_cons_of_mem _ hc', hcl'⟩

theorem eraseIdx : ∀ {l : List Core.Event} {index : ℕ},
    (l[index]?).all (fun e => e.eventType ≠ .sessionClosed) = true → Followed alive l →
    Followed alive (l.eraseIdx index)
  | [], _, _, h => h
  | _ :: _, 0, _, h => h.2
  | _ :: _, _ + 1, hk, h =>
    ⟨fun ha => (h.1 ha).imp_right (closing_eraseIdx hk), eraseIdx hk h.2⟩

end Followed

/-! ### Tables -/

/-- **The session is in none of the tables.** -/
structure Absent (g : GameRuntime) (session : Handle) : Prop where
  admission : g.admission.lookup session = none
  owner : g.sessionEndpoints.lookup session = none
  heartbeat : g.heartbeatTrackers.lookup session = none
  clock : g.clockTrackers.lookup session = none
  quality : g.udpSessions.lookup session = none
  range : g.range.sessions.lookup session = none
  scheduled : ∀ m ∈ g.scheduled, m.1 ≠ session
  realtime : ∀ key m, g.realtime.lookup key = some m → key.1 ≠ session
  serverSession : g.resume.serverSessions.lookup session = none
  pending : g.resume.pendingServer.lookup session = none
  inflight : ∀ old, g.resume.inflightServer.lookup old ≠ some session

namespace Absent

variable {g g' : GameRuntime} {session : Handle}

theorem network (h : Absent g session) (n : NetworkRuntime) :
    Absent { g with network := n } session :=
  ⟨h.admission, h.owner, h.heartbeat, h.clock, h.quality, h.range, h.scheduled, h.realtime,
    h.serverSession, h.pending, h.inflight⟩

theorem sheds (h : Absent g session) (hs : Sheds gone g g') : Absent g' session where
  admission := hs.admission.sub.lookup_none h.admission
  owner := hs.owners.sub.lookup_none h.owner
  heartbeat := hs.heartbeats.lookup_none h.heartbeat
  clock := hs.clockTrackers.sub.lookup_none h.clock
  quality := hs.udpSessions.sub.lookup_none h.quality
  range := hs.sessions.sub.lookup_none h.range
  scheduled m hm := h.scheduled m (hs.scheduled m hm).1
  realtime key m hm := h.realtime key m (hs.realtime key m hm).1
  serverSession := hs.serverSessions.lookup_none h.serverSession
  pending := hs.pending.lookup_none h.pending
  inflight old ho := h.inflight old (hs.inflight old session ho)

theorem of_gone (hs : Sheds gone g g') (hi : session ∈ gone) : Absent g' session := by
  have hn : ∀ {V : Type} {t t' : Table Handle V}, Purged gone t t' → t'.lookup session = none :=
    fun hp => by rw [hp session, if_pos hi]
  have hf := hs.forgotten session hi
  exact {
    admission := hn hs.admission
    owner := hn hs.owners
    heartbeat := hf.heartbeat
    clock := hn hs.clockTrackers
    quality := hn hs.udpSessions
    range := hn hs.sessions
    scheduled := fun m hm he => (hs.scheduled m hm).2 (he ▸ hi)
    realtime := fun key m hm he => (hs.realtime key m hm).2 (he ▸ hi)
    serverSession := hf.serverSession
    pending := hf.pending
    inflight := hf.inflight }

theorem sent {kind : ControlKind} {other : Handle} {payload : Bytes} {r : Result Unit}
    (h : Absent g session) (hs : Sent kind other payload g g' r) : Absent g' session := by
  rw [hs.core]
  exact h.network _

theorem ne_of_found (h : Absent g session) (hf : g.range.sessions.lookup other = some state) :
    session ≠ other := by
  rintro rfl
  rw [h.range] at hf
  cases hf

theorem setSession (h : Absent g session) (hn : session ≠ other) (state : RangeSession) :
    Absent (g.setSession other state) session :=
  { h with
    range := by
      exact lookup_insert_none h.range hn state }

theorem flushed (h : Absent g session) (hf : Flushed g g') : Absent g' session := by
  have hq := hf.udp session
  rw [h.quality] at hq
  have hn : g'.udpSessions.lookup session = none :=
    Option.not_isSome_iff_eq_none.mp (by rw [hq]; decide)
  have hs := fun m hm => h.scheduled m (hf.scheduled m hm)
  have hr := fun key m hm => h.realtime key m (hf.realtime key m hm)
  rw [hf.core]
  exact { h with quality := hn, scheduled := hs, realtime := hr }

end Absent

theorem takeClaim_absent (r : ResumeRuntimeState) (endpoint : Handle)
    (hs : r.serverSessions.lookup s = none) (hp : r.pendingServer.lookup s = none)
    (hi : ∀ old, r.inflightServer.lookup old ≠ some s) (hn : s ≠ session) :
    (takeClaim r endpoint session).1.serverSessions.lookup s = none ∧
      (takeClaim r endpoint session).1.pendingServer.lookup s = none ∧
      ∀ old, (takeClaim r endpoint session).1.inflightServer.lookup old ≠ some s := by
  rcases takeClaim_cases r endpoint session with ⟨claim, -, ht⟩ | ⟨-, ht⟩
  · rw [ht]
    refine ⟨hs, Sub.lookup_none (.erase _ _) hp, fun old ho => ?_⟩
    rw [lookup_insert_ite] at ho
    split_ifs at ho
    · exact hn (Option.some.inj ho).symm
    · exact hi old ho
  · rw [ht]
    exact ⟨hs, hp, hi⟩

/-! ### The invariant -/

/-- Nothing of a session without a route is left, unless its end is still announced. -/
structure Tidy (g : GameRuntime) : Prop where
  absent : ∀ s, ¬Alive g.network s → ¬Closing (pipeline g) s → Absent g s
  followed : Followed (Alive g.network) (pipeline g)

/-- A step that adds the events `new` to the pipeline, an announcement for every route that goes. -/
structure Flows (new : List Core.Event) (g g' : GameRuntime) : Prop where
  pipeline : pipeline g' = pipeline g ++ new
  announced : Announced g.network.shared g'.network.shared new
  followed : Followed (Alive g'.network) new

variable {new : List Core.Event} {g g' : GameRuntime}

theorem Flows.gone (h : Flows new g g') (ha : Alive g.network s) :
    Alive g'.network s ∨ Closing new s := by
  by_cases hs : Alive g'.network s
  · exact .inl hs
  · exact .inr (h.announced s ha (Option.not_isSome_iff_eq_none.mp hs))

theorem Tidy.flows (h : Tidy g) (hf : Flows new g g')
    (hab : ∀ s, ¬Alive g.network s → ¬Closing (pipeline g) s → Absent g s → Absent g' s) :
    Tidy g' := by
  constructor
  · intro s hd hq
    rw [hf.pipeline] at hq
    have hb : ¬Alive g.network s := fun ha =>
      (hf.gone ha).elim hd fun hc => hq (hc.append_right _)
    have hs : ¬Closing (pipeline g) s := fun hc => hq (hc.append_left _)
    exact hab s hb hs (h.absent s hb hs)
  · rw [hf.pipeline]
    exact .append hf.followed (fun s ha => hf.gone ha) h.followed

theorem flows_same (hs : g'.network.shared = g.network.shared) (hp : g'.poll = g.poll) :
    Flows [] g g' := by
  refine ⟨?_, ?_, trivial⟩
  · unfold Steps.pipeline
    rw [hs, hp, List.append_nil]
  · rw [hs]
    exact .refl _ _

theorem flows_net (h : Net new g.network n) (hf : Followed (Alive n) new) :
    Flows new g { g with network := n } := by
  refine ⟨?_, h.closed, hf⟩
  change _ ++ n.shared.events = _ ++ g.network.shared.events ++ new
  rw [h.events, List.append_assoc]

theorem flows_sheds (h : Sheds gone g g') : ∃ new, Flows new g g' := by
  obtain ⟨new, hev, hc, hal⟩ := h.closes.events
  refine ⟨new, ?_, hal, .of_quiet fun e he ha => ?_⟩
  · unfold Steps.pipeline
    rw [h.poll, hev, List.append_assoc]
  · rw [hc e he] at ha
    cases ha

theorem flows_sent (h : Sent kind session payload g g' r) : Flows [] g g' := by
  refine flows_same ?_ h.poll
  rw [h.core]

namespace Tidy

variable {g g' : GameRuntime}

theorem sheds (h : Tidy g) (hs : Sheds gone g g') : Tidy g' := by
  obtain ⟨new, hf⟩ := flows_sheds hs
  exact h.flows hf fun s _ _ ha => ha.sheds hs

theorem sent {kind : ControlKind} {session : Handle} {payload : Bytes} {r : Result Unit}
    (h : Tidy g) (hs : Sent kind session payload g g' r) : Tidy g' :=
  h.flows (flows_sent hs) fun _ _ _ ha => ha.sent hs

theorem net (h : Tidy g) (hn : Net new g.network n) (hq : ∀ e ∈ new, e.eventType ≠ .authRequest) :
    Tidy { g with network := n } :=
  h.flows (flows_net hn (.of_quiet hq)) fun _ _ _ ha => ha.network n

variable {session : Handle}

theorem setSession (h : Tidy g) (hf : g.range.sessions.lookup session = some state)
    (state' : RangeSession) : Tidy (g.setSession session state') := by
  exact h.flows (flows_same rfl rfl) fun s _ _ ha =>
    ha.setSession (ha.ne_of_found hf) state'

variable {r : Result (Option GameEvent)}

theorem publishes {endpoint : Handle} (h : Tidy g)
    (hp : Publishes g endpoint session old serverResume g' r) : Tidy g' := by
  cases hp with
  | lost hs => exact h.sheds hs
  | broken => exact h
  | announced hl _ hs =>
    have hre : Tidy { g with admission := g.admission.insert session () } := by
      refine h.flows (flows_same rfl rfl) fun s hd _ ha => { ha with admission := ?_ }
      exact lookup_insert_none ha.admission (ne_of_live hl hd) ()
    have hr := hre.sheds hs
    exact ⟨fun s hd hq => { hr.absent s hd hq with }, hr.followed⟩

theorem completed (h : Tidy g) (hf : g.range.sessions.lookup session = some state) (phase : Phase) :
    Tidy (completedState g session state phase) := by
  have hs := h.setSession hf { state with phase := phase }
  refine hs.flows (flows_same rfl rfl) fun s _ _ ha => { ha with range := ?_ }
  change (RangeRuntimeState.completeBuffered _ session).sessions.lookup s = none
  unfold RangeRuntimeState.completeBuffered
  split
  · exact ha.range
  rename_i found hl
  exact lookup_insert_none ha.range (ha.ne_of_found hl) _

variable {event : Core.Event}

theorem tracked (h : Tidy g) (hl : Live g.network event.session) (transport : Transport) :
    Tidy (withTrackers g event transport) := by
  refine h.flows (flows_same rfl rfl) fun s hd _ ha => ?_
  have hn := ne_of_live hl hd
  have ht := takeClaim_absent g.resume event.endpoint ha.serverSession ha.pending
    ha.inflight hn
  exact { ha with
    owner := lookup_insert_none ha.owner hn _
    heartbeat := lookup_insert_none ha.heartbeat hn _
    clock := lookup_insert_none ha.clock hn _
    quality := by
      change (if transport = .udp then _ else _ : Table Handle UInt32).lookup s = none
      split_ifs
      · exact lookup_insert_none ha.quality hn _
      · exact ha.quality
    serverSession := ht.1
    pending := ht.2.1
    inflight := ht.2.2 }

theorem registered {env : Env} {event : Core.Event} {join : RangeJoinRequest}
    {tickets : ResumeRegistry} {version : UInt32} {claim : Option ResumeClaim} (h : Tidy g)
    (hh : Alive g.network event.session ∨ Closing (pipeline g) event.session) (peerKey : Bytes) :
    Tidy (withCandidate env g event peerKey join tickets version claim) := by
  refine h.flows (flows_same rfl rfl) fun s hd hq ha => ?_
  have hn : s ≠ event.session := by
    rintro rfl
    exact hh.elim hd hq
  exact { ha with
    owner := lookup_insert_none ha.owner hn _
    range := lookup_insert_none ha.range hn _
    serverSession := lookup_insert_none ha.serverSession hn _
    pending := by
      rcases claim with - | c
      · exact ha.pending
      · exact lookup_insert_none ha.pending hn c }

theorem converts (h : Tidy g)
    (hh : event.eventType = .authRequest → Alive g.network event.session ∨
      Closing (pipeline g) event.session) (hc : Converts env g event g' r) : Tidy g' := by
  cases hc with
  | shed hsh => exact h.sheds hsh
  | rejected =>
    have hd := h.net (net_authDecide g.network event.session false env.decisionExpired) nofun
    exact ⟨fun s hde hq => { hd.absent s hde hq with }, hd.followed⟩
  | registered hty => exact h.registered (hh hty) _
  | unexpected _ _ _ hl => exact h.tracked hl _
  | @opened transport _ _ _ _ _ hl hst _ hs =>
    have ht := h.tracked hl transport
    exact (ht.setSession hst _).sent hs
  | @joined transport _ _ _ hl =>
    refine (h.tracked hl transport).flows (flows_same rfl rfl) fun s hde _ hab =>
        { hab with range := ?_ }
    exact lookup_insert_none hab.range (ne_of_live hl hde) _
  | answered _ _ hs => exact h.sent hs
  | selected ha _ hs => exact (h.setSession ha.found _).sent hs
  | confirmed _ _ hs => exact h.sent hs
  | serverCompleted ha _ _ _ _ hs hp =>
    have hf := ha.found
    rw [← hs.range] at hf
    exact ((h.sent hs).completed hf _).publishes hp
  | clientCompleted ha _ _ _ _ hp =>
    exact (h.completed ha.found _).publishes hp
  | buffered _ _ hst =>
    refine h.flows (flows_same rfl rfl) fun s _ _ hab => { hab with range := ?_ }
    exact lookup_insert_none hab.range (hab.ne_of_found hst) _
  | passed => exact h

theorem popped (h : Tidy g) (hp : g.poll = some p) (hba : p.batch = event :: rest)
    (hc : Converts env { g with poll := some { p with batch := rest } } event g' r) : Tidy g' := by
  have hpi : pipeline g = event :: pipeline { g with poll := some { p with batch := rest } } := by
    unfold pipeline
    rw [hp]
    change p.batch ++ _ = _
    rw [hba]
    rfl
  have hf := h.followed
  rw [hpi] at hf
  have hcl : ∀ {s}, s ≠ event.session ∨ event.eventType ≠ .sessionClosed →
      Closing (pipeline g) s →
        Closing (pipeline { g with poll := some { p with batch := rest } }) s := by
    rintro s ho ⟨c, hc, hclo, rfl⟩
    rw [hpi] at hc
    rcases List.mem_cons.mp hc with rfl | hc
    · exact (ho.elim (· rfl) (· hclo)).elim
    · exact ⟨c, hc, hclo, rfl⟩
  by_cases ht : event.eventType = .sessionClosed
  · -- Everything of the session goes with the notification.
    cases hc with
    | shed hsh _ hg =>
      obtain ⟨new, hfl⟩ := flows_sheds hsh
      constructor
      · intro s hd hq
        rw [hfl.pipeline] at hq
        by_cases hs : s = event.session
        · exact .of_gone hsh (hs ▸ hg ht)
        refine Absent.sheds (g := { g with poll := some { p with batch := rest } }) ?_ hsh
        have hb : ¬Alive g.network s := fun hal =>
          (hfl.gone hal).elim hd fun hcl => hq (hcl.append_right _)
        exact { h.absent s hb fun hc =>
          hq ((hcl (.inl hs) hc).append_left _) with }
      · rw [hfl.pipeline]
        exact .append hfl.followed (fun s hal => hfl.gone hal) hf.2
    | rejected ho | registered ho | unexpected _ ho | opened ho
    | joined ho | answered ho => rw [ho] at ht; cases ht
    | selected ha | confirmed ha | serverCompleted ha
    | clientCompleted ha => rw [ha.type] at ht; cases ht
    | buffered ho | passed ho => rw [ho] at ht; cases ht
  · have hpo : Tidy { g with poll := some { p with batch := rest } } := by
      refine ⟨fun s hd hq => ?_, hf.2⟩
      exact { h.absent s hd fun hc => hq (hcl (.inr ht) hc) with }
    exact hpo.converts hf.1 hc

end Tidy

/-! ### Whole runs -/

end Rnet.Game.Residue
