import Rnet.Game.Takeover

/-! # The handles in the tables

Routes, tickets, claims and negotiations only name sessions that were registered, as long as the
application resumes no session that never was. A negotiation that resumes on the server has a
predecessor, and the early data it keeps is its own. -/

namespace Rnet.Game.Handles

open Rnet.Core Lib.BigEndian Lib.FiniteMap
open Envelope (ControlKind)
open Join Event RangeState Resume Game.Runtime Game.Runtime.GameRuntime Cleanup Workers
open Conversion Steps Tickets Takeover

structure Sane (next session : Handle) (state : RangeSession) : Prop where
  old : ∀ o ∈ state.oldSession, o < next
  resumes : state.serverResume = true → state.oldSession.isSome
  buffered : ∀ m ∈ state.buffered, m.session = session

theorem Sane.mono {next next' session : Handle} (h : Sane next session state) (hl : next ≤ next') :
    Sane next' session state :=
  ⟨fun o ho => Nat.lt_of_lt_of_le (h.old o ho) hl, h.resumes, h.buffered⟩

/-- **Only registered sessions are named.** -/
structure Known (g : GameRuntime) : Prop where
  routes : ∀ session route, g.network.shared.sessions.lookup session = some route →
    session < g.network.shared.nextSession
  tickets : ∀ nonce entry, g.resume.tickets.entries.lookup nonce = some entry →
    entry.oldSession < g.network.shared.nextSession
  claims : ∀ session claim, g.resume.pendingServer.lookup session = some claim →
    claim.oldSession < g.network.shared.nextSession
  clients : ∀ endpoint old, g.resume.clientEndpoints.lookup endpoint = some old →
    old < g.network.shared.nextSession
  states : ∀ session state, g.range.sessions.lookup session = some state →
    Sane g.network.shared.nextSession session state

theorem removed_entries (tickets : ResumeRegistry) (nonce : Nonce) (entry : TicketEntry) :
    Sub ((tickets.register nonce entry).remove nonce).entries tickets.entries := by
  intro n found hf
  unfold ResumeRegistry.remove at hf
  have hr : (tickets.register nonce entry).entries.lookup nonce = some entry :=
    AList.lookup_insert _
  rw [hr] at hf
  change ((tickets.entries.insert nonce entry).erase nonce).lookup n = some found at hf
  rw [lookup_erase_ite, lookup_insert_ite] at hf
  split_ifs at hf
  exact hf

theorem rescheduled_found {r : RangeRuntimeState} {session : Handle}
    (h : (r.dueControls now).1.sessions.lookup session = some found) :
    ∃ state, r.sessions.lookup session = some state ∧
      RangeRuntimeState.RangeSession.rescheduled state now = found := by
  have hm := (lookup_mapValues r.sessions _ session).symm.trans h
  exact Option.map_eq_some_iff.mp hm

theorem phase_rescheduled (state : RangeSession) (now : Instant) :
    (RangeRuntimeState.RangeSession.rescheduled state now).phase = state.phase := by
  unfold RangeRuntimeState.RangeSession.rescheduled
  split <;> rfl

namespace Known

variable {g g' : GameRuntime}

variable (h : Known g)
include h

theorem frame (hd : Descends g.network g'.network)
    (ht : Sub g'.resume.tickets.entries g.resume.tickets.entries)
    (hcla : Sub g'.resume.pendingServer g.resume.pendingServer)
    (hcl : Sub g'.resume.clientEndpoints g.resume.clientEndpoints)
    (hst : ∀ session state, g'.range.sessions.lookup session = some state →
      Sane g.network.shared.nextSession session state) : Known g' where
  routes session route hr := by
    rcases hd.routes session route hr with ⟨old, hol, -⟩ | hf
    · exact Nat.lt_of_lt_of_le (h.routes session old hol) hd.nextSession_le
    · exact hf.2
  tickets nonce entry he :=
    Nat.lt_of_lt_of_le (h.tickets nonce entry (ht _ _ he)) hd.nextSession_le
  claims session claim hc :=
    Nat.lt_of_lt_of_le (h.claims session claim (hcla _ _ hc)) hd.nextSession_le
  clients endpoint old ho :=
    Nat.lt_of_lt_of_le (h.clients endpoint old (hcl _ _ ho)) hd.nextSession_le
  states session state hs := (hst session state hs).mono hd.nextSession_le

theorem network (hd : Descends g.network n) : Known { g with network := n } :=
  h.frame hd (.refl _) (.refl _) (.refl _) h.states

theorem sheds (hs : Sheds gone g g') : Known g' :=
  h.frame (descends_sheds hs) hs.tickets.entries hs.pending hs.resuming
    fun session state hst => h.states session state (hs.sessions.sub _ _ hst)

variable {session : Handle} {env : Env} {event : Core.Event}

theorem sent {kind : ControlKind} {payload : Bytes} {r : Result Unit}
    (hs : Sent kind session payload g g' r) : Known g' := by
  have hd := descends_sent hs
  rw [hs.core] at hd ⊢
  exact h.network hd

theorem setSession (session : Handle) (state : RangeSession)
    (hs : Sane g.network.shared.nextSession session state) :
    Known (g.setSession session state) := by
  refine h.frame (.refl _) (.refl _) (.refl _) (.refl _) fun other found hf => ?_
  change (g.range.sessions.insert session state).lookup other = some found at hf
  rw [lookup_insert_ite] at hf
  split_ifs at hf with he
  · cases hf
    exact he ▸ hs
  · exact h.states other found hf

theorem completed (hst : g.range.sessions.lookup session = some state) (phase : Phase) :
    Known (completedState g session state phase) := by
  have hs := h.states session state hst
  refine h.frame (.refl _) (.refl _) (.refl _) (.refl _) fun other found hf => ?_
  rw [lookup_completedState] at hf
  split_ifs at hf with he
  · cases hf
    exact ⟨hs.old, hs.resumes, nofun⟩
  · exact h.states other found hf

theorem publishes {endpoint session : Handle}
    (hp : Publishes g endpoint session old serverResume g' r) : Known g' := by
  cases hp with
  | lost hs => exact h.sheds hs
  | broken => exact h
  | announced _ _ hs =>
    have hr := Known.sheds (g := { g with admission := g.admission.insert session () })
      { h with } hs
    exact { hr with }

theorem taken (endpoint session : Handle) :
    (∀ o ∈ (takeClaim g.resume endpoint session).2.1, o < g.network.shared.nextSession) ∧
      ((takeClaim g.resume endpoint session).2.2 = true →
        (takeClaim g.resume endpoint session).2.1.isSome) ∧
      (takeClaim g.resume endpoint session).1.tickets = g.resume.tickets := by
  rcases takeClaim_cases g.resume endpoint session with ⟨claim, hc, ht⟩ | ⟨-, ht⟩
  · rw [ht]
    refine ⟨fun o ho => ?_, fun _ => rfl, rfl⟩
    cases Option.some.inj ho
    exact h.claims session claim hc
  · rw [ht]
    exact ⟨fun o ho => h.clients endpoint o ho, nofun, rfl⟩

theorem tracked (event : Core.Event) (transport : Transport) :
    Known (withTrackers g event transport) := by
  obtain ⟨-, -, ht⟩ := h.taken event.endpoint event.session
  obtain ⟨hc, hcl⟩ := sub_takeClaim g.resume event.endpoint event.session
  refine h.frame (.refl _) ?_ hcl hc h.states
  change Sub (takeClaim g.resume event.endpoint event.session).1.tickets.entries _
  rw [ht]
  exact .refl _

theorem registered {join : RangeJoinRequest} {protocol : GameProtocol} {tickets : ResumeRegistry}
    {version : UInt32} {claim : Option ResumeClaim}
    (ht : ResumeRegistry.Loses g.resume.tickets tickets)
    (hc : Chosen g.resume.tickets join.protocol protocol version claim) (peerKey : Bytes) :
    Known (withCandidate env g event peerKey join tickets version claim) := by
  have hs := h.setSession event.session (candidate env event join version)
    ⟨nofun, nofun, nofun⟩
  refine { hs with
    tickets := fun nonce entry he => h.tickets nonce entry (ht.entries _ _ he)
    claims := ?_ }
  cases hc with
  | selected => exact h.claims
  | pinned hen ho =>
    intro session found hf
    change (g.resume.pendingServer.insert event.session _).lookup session = some found at hf
    rw [lookup_insert_ite] at hf
    split_ifs at hf
    · cases hf
      rw [← ho]
      exact h.tickets _ _ hen
    · exact h.claims session found hf

theorem converts (hc : Converts env g event g' r) : Known g' := by
  obtain ⟨ho, hr, -⟩ := h.taken event.endpoint event.session
  cases hc with
  | shed hsh => exact h.sheds hsh
  | rejected _ ht =>
    exact h.frame (descends_net (net_authDecide _ _ _ _)) ht.entries (.refl _) (.refl _) h.states
  | registered _ _ _ ht hch => exact h.registered ht hch _
  | unexpected => exact h.tracked event _
  | @opened transport state _ _ _ _ _ hst _ hs =>
    have hsa := h.states _ _ hst
    refine Known.sent ?_ hs
    exact (h.tracked event transport).setSession _ _ ⟨ho, hr, hsa.buffered⟩
  | @joined transport pending =>
    have hse := (h.tracked event transport).setSession event.session
      (joinedState env event.endpoint pending
        (takeClaim g.resume event.endpoint event.session).2.1) ⟨ho, nofun, nofun⟩
    exact { hse with }
  | answered _ _ hs => exact h.sent hs
  | @selected state control _ _ ha _ hs =>
    have hsa := h.states _ _ ha.found
    have hse := h.setSession event.session (selectedState env state control)
      ⟨hsa.old, hsa.resumes, hsa.buffered⟩
    exact hse.sent hs
  | confirmed _ _ hs => exact h.sent hs
  | serverCompleted ha _ _ _ _ hs hp =>
    have hf := ha.found
    rw [← hs.range] at hf
    exact ((h.sent hs).completed hf _).publishes hp
  | clientCompleted ha _ _ _ _ hp =>
    exact (h.completed ha.found _).publishes hp
  | @buffered message state messages bytes _ hme hst =>
    have hsa := h.states _ _ hst
    have hse := h.setSession event.session { state with
      bufferedBytes := state.bufferedBytes + message.payload.length
      buffered := state.buffered ++ [message] } ⟨hsa.old, hsa.resumes, fun m hm => ?_⟩
    · exact { hse with }
    rcases List.mem_append.mp hm with hm | hm
    · exact hsa.buffered m hm
    · rw [List.mem_singleton.mp hm, hme]
  | passed => exact h

theorem issues (hi : Issues g session g' r) : Known g' := by
  cases hi with
  | refused _ ht =>
    exact h.frame (.refl _) ht.entries (.refl _) (.refl _) h.states
  | @sent tickets nonce tag entry info _ ht _ ho _ _ hs =>
    -- A session that was sent its ticket has a route.
    have hr : session < g.network.shared.nextSession := by
      cases hs with
      | admitted _ hl =>
        obtain ⟨-, route, hro, -⟩ := hl
        exact h.routes session route hro
    refine Known.sent ?_ hs
    refine { h with tickets := fun n found hf => ?_ }
    change (tickets.entries.insert nonce entry).lookup n = some found at hf
    rw [lookup_insert_ite] at hf
    split_ifs at hf
    · cases hf
      rw [ho]
      exact hr
    · exact h.tickets n found (ht.entries _ _ hf)
  | @undone tickets nonce entry _ ht =>
    refine h.frame (.refl _) ?_ (.refl _) (.refl _) h.states
    exact (removed_entries tickets nonce entry).trans ht.entries

end Known

/-- The application resumes sessions that were registered. -/
def resuming : GameRuntime → Input → Bool
  | g, .connect c => c.resume.all fun r => r.1 < g.network.shared.nextSession
  | _, _ => true

theorem known_keeps : TableKeeps (fun g input => resuming g input = true) Known where
  shed h hs := h.sheds hs
  sent h _ hs := h.sent hs
  rescheduled now h := by
    refine h.frame (.refl _) (.refl _) (.refl _) (.refl _) fun session found hfo => ?_
    obtain ⟨state, hsta, rfl⟩ := rescheduled_found hfo
    have hsa := h.states session state hsta
    unfold RangeRuntimeState.RangeSession.rescheduled
    split
    · exact ⟨hsa.old, hsa.resumes, hsa.buffered⟩
    · exact hsa
  repeated h _ _ hs := h.sent hs
  listened h _ _ := { h with }
  connected {g c nonce payload} h hg _ := by
    refine { h with clients := fun endpoint old ho => ?_ }
    change (c.resume.elim g.resume.clientEndpoints _).lookup endpoint = some old at ho
    rcases hr : c.resume with - | r
    · rw [hr] at ho
      exact h.clients endpoint old ho
    rw [hr, Option.elim_some, lookup_insert_ite] at ho
    split_ifs at ho
    · cases ho
      have ha : c.resume.all (fun r => r.1 < g.network.shared.nextSession) = true := hg
      rw [hr] at ha
      exact of_decide_eq_true ha
    · exact h.clients endpoint old ho
  decided h _ := h.network (descends_net (net_authDecide _ _ _ _))
  issued h _ hi := h.issues hi
  scheduled h _ _ := { h with }
  latest h _ _ := { h with }
  flushed h hf := by
    rw [hf.core]
    exact { h with }
  ended h hn := h.network (descends_netEnds hn)
  stopped h := h.frame (descends_netEnds (netEnds_stop _)) (.empty _) (.empty _) (.empty _) nofun
  accepted h _ := h.network (descends_accept _ _ _ _ _ _)
  joined h _ := h.network (descends_net (net_join _ _ _).1)
  established h _ := h.network (descends_establish _ _ _)
  delivered h _ := h.network (descends_deliver _ _ _ _)
  announced h := h.network (descends_announceEndpoint _ _ _)
  lost h _ := h.network (descends_lose _ _)
  same h hs := by
    have hse := hs.tables.sessions
    have hst := h.states
    rw [← hse] at hst
    rw [hs.core]
    exact { h with states := hst }
  converted h _ _ _ hc := by
    refine Known.converts ?_ hc
    exact { h with }

theorem known_reach (h : machine.Reach (fun g input => resuming g input = true) g) : Known g := by
  refine h.invariant ?_ fun g input hg hgu => known_keeps.keeps.step hg hgu
  rintro g ⟨config, clockRoom, ttl, maxResumeTickets, sign, hb⟩
  rw [build_spec hb]
  exact ⟨nofun, nofun, nofun, nofun, nofun⟩

/-! ### Redeemed tickets -/

variable {r : ResumeRegistry}

theorem mem_of_tryDraws (h : r.tryDraws l = .ok nonce) : some nonce ∈ l := by
  induction l with
  | nil => cases h
  | cons draw l ih =>
    cases draw with
    | none => cases h
    | some drawn =>
      unfold ResumeRegistry.tryDraws at h
      split_ifs at h
      · cases h
        exact List.mem_cons_self
      · exact List.mem_cons_of_mem _ (ih h)

/-- The step draws no nonce like this one. -/
def undrawn (nonce : Nonce) : Input → Prop
  | .issueResumeTicket _ draws _ _ => ∀ i, draws i ≠ some nonce
  | _ => True

theorem absent_issue (h : r.entries.lookup nonce = none) (hd : ∀ i, draws i ≠ some nonce)
    (scope : ResumeScope) (identity : Bytes) (now : Instant) (ttl : ℕ) :
    (r.issue scope identity now ttl draws).1.entries.lookup nonce = none := by
  have hp := (ResumeRegistry.loses_prune r now).entries.lookup_none h
  rcases ResumeRegistry.issue_cases r scope identity now ttl draws with
    ⟨e, -, hs | hs⟩ | ⟨drawn, -, hn, hs, -⟩ <;> rw [hs]
  · exact h
  · exact hp
  have hne : nonce ≠ drawn := by
    rintro rfl
    obtain ⟨i, -, hi⟩ := List.mem_map.mp (mem_of_tryDraws hn)
    exact hd i hi
  change (AList.insert drawn _ _).lookup nonce = none
  rw [lookup_insert_ite, if_neg hne]
  exact (ResumeRegistry.loses_revokeSession _ _).entries.lookup_none hp

theorem absent_step (h : g.resume.tickets.entries.lookup nonce = none) (hd : undrawn nonce input) :
    (step g input).resume.tickets.entries.lookup nonce = none := by
  by_cases hi : issuesNothing input = true
  · exact (loses_step g hi).entries.lookup_none h
  cases input with
  | issueResumeTicket env draws session identity =>
    change (g.issueResumeTicket env draws session identity).1.resume.tickets.entries.lookup nonce = none
    unfold issueResumeTicket
    split
    · exact h
    split
    · exact h
    split
    · exact h
    rename_i endpoint _ _ info _
    have ha := absent_issue h hd ⟨endpoint, session, info.peerKey, info.protocol⟩ identity env.now
      g.resume.ttl
    dsimp only
    split
    · exact ha
    rename_i ticket _
    have hs := (sent_sendControl env { g with resume := { g.resume with
      tickets := (g.resume.tickets.issue ⟨endpoint, session, info.peerKey, info.protocol⟩
        identity env.now g.resume.ttl draws).1 } } .resume session ticket).core
    split <;> rw [hs]
    · exact ha
    · exact (ResumeRegistry.loses_revokeTicket _ _).entries.lookup_none ha
  | _ => exact absurd rfl hi

theorem absent_run (inputs : List Input) (h : g.resume.tickets.entries.lookup nonce = none)
    (hd : ∀ input ∈ inputs, undrawn nonce input) :
    (machine.run g inputs).resume.tickets.entries.lookup nonce = none := by
  induction inputs generalizing g with
  | nil => exact h
  | cons input inputs ih =>
    have hn := absent_step h (hd input List.mem_cons_self)
    exact ih hn fun i hi => hd i (List.mem_cons_of_mem _ hi)

theorem consume_absent (h : r.entries.lookup (.read ticket 0) = none) (endpoint : Handle)
    (peerKey : Bytes) (protocol : SelectedProtocol) (now : Instant) :
    (r.consume ticket endpoint peerKey protocol now).2 = .error invalidTicket := by
  have ha : (r.prune now).authentic ticket = .error invalidTicket := by
    unfold ResumeRegistry.authentic
    dsimp only
    rw [(ResumeRegistry.loses_prune r now).entries.lookup_none h]
    split_ifs <;> rfl
  unfold ResumeRegistry.consume
  dsimp only
  rw [ha]

theorem absent_of_consume {endpoint : Handle}
    (h : r.consume ticket endpoint peerKey protocol now = (r', .ok claim)) :
    r'.entries.lookup (.read ticket 0) = none := by
  unfold ResumeRegistry.consume at h
  dsimp only at h
  split at h
  · cases h
  rename_i ha
  obtain ⟨-, rfl, -⟩ := ResumeRegistry.authentic_eq_ok.mp ha
  split_ifs at h
  · cases h
  · cases h
    rw [ResumeRegistry.lookup_remove, if_pos rfl]

/-- **A ticket is good once.** In every run in which the application resumes only sessions that were
registered, the indices of the tickets agree, and routes, tickets, claims and negotiations name
registered sessions. A ticket that is redeemed stands for a registered session and is refused from
then on, whatever happens, unless its nonce is drawn again. -/
theorem ticket_good_once (h : machine.Reach (fun g input => resuming g input = true) g) :
    ResumeRegistry.Coherent g.resume.tickets ∧ Known g ∧
    ∀ ticket endpoint peerKey protocol now r claim,
      g.resume.tickets.consume ticket endpoint peerKey protocol now = (r, .ok claim) →
      claim.oldSession < g.network.shared.nextSession ∧
      ∀ inputs, (∀ input ∈ inputs, undrawn (.read ticket 0) input) →
        ∀ endpoint' peerKey' protocol' now',
          ((machine.run { g with resume := { g.resume with tickets := r } }
            inputs).resume.tickets.consume ticket endpoint' peerKey' protocol' now').2 =
              .error invalidTicket := by
  have hc := coherent_reach (h.mono fun _ _ _ => trivial)
  have hk := known_reach h
  refine ⟨hc, hk, fun ticket endpoint peerKey protocol now r claim hr => ⟨?_, fun inputs hd => ?_⟩⟩
  · obtain ⟨nonce, entry, he, ho, -⟩ :=
      (ResumeRegistry.consume_cases g.resume.tickets ticket endpoint peerKey protocol now).2 claim
        (by rw [hr])
    exact ho ▸ hk.tickets nonce entry he
  · exact consume_absent (absent_run inputs (absent_of_consume hr) hd)

/-- The ticket of a session is redeemed, and another one is issued. -/
theorem ticket_good_once_reissued : ∃ (g : GameRuntime) (r : ResumeRegistry),
    g.resume.tickets.consume (sampleTicket 3) 1 samplePeerKey ⟨7, 2⟩ 1000 = (r, .ok ⟨1, [9]⟩) ∧
    ((machine.run { g with resume := { g.resume with tickets := r } }
      [.issueResumeTicket calm (fun _ => some (sampleNonce 4)) 1 [9]]).resume.tickets.consume
        (sampleTicket 3) 1 samplePeerKey ⟨7, 2⟩ 1000).2 = .error invalidTicket := by
  have hr : machine.Reach (fun g input => resuming g input = true)
      (machine.run newServer ticketed) :=
    Lib.GuardedRun.Machine.reach_run ticketed (.start init_newServer) (by decide +kernel)
  have ho : ((machine.run newServer ticketed).resume.tickets.consume (sampleTicket 3) 1
      samplePeerKey ⟨7, 2⟩ 1000).2 = .ok ⟨1, [9]⟩ := by decide +kernel
  -- the run is not to be evaluated again
  generalize machine.run newServer ticketed = g at hr ho
  obtain ⟨r, h⟩ : ∃ r, g.resume.tickets.consume (sampleTicket 3) 1 samplePeerKey ⟨7, 2⟩ 1000 =
      (r, .ok ⟨1, [9]⟩) := ⟨_, Prod.ext rfl ho⟩
  refine ⟨g, r, h, ((ticket_good_once hr).2.2 _ _ _ _ _ r _ h).2 _ (fun input hi => ?_) ..⟩
  cases List.mem_singleton.mp hi
  intro i
  show some (sampleNonce 4) ≠ some (.read (sampleTicket 3) 0)
  decide +kernel

end Rnet.Game.Handles
