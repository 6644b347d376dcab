import Rnet.Game.Tickets

/-! # Candidates for one old session

A redeemed ticket makes a new session a candidate for taking over an old one: first as a pending
claim, then, once the new session is opened, in the one slot of the old session. The slot is written
by whichever candidate opens last and is looked at when a candidate has been acknowledged. Two facts
about it. A candidate that finds another one in the slot clears the slot, so the other one is lost
too, unless its own route went in between. A kick empties all four places, and nothing fills them
again: no takeover of a kicked session is announced in any run. -/

namespace Rnet.Game.Takeover

open Rnet.Core Lib.BigEndian Lib.FiniteMap Lib.GuardedRun
open Transport.Sending (exceedsTarget)
open Envelope (ControlKind encodeControl)
open Controls Event RangeState Resume.ResumeRegistry Network Game.Runtime Game.Runtime.GameRuntime
open Cleanup Workers Conversion Steps Tickets

/-! ### A handle is not used again -/

/-- The routes of a later state: those of the earlier one that are left, and ones under new handles.
-/
structure Descends (n n' : NetworkRuntime) : Prop where
  config : n'.shared.config = n.shared.config
  nextSession_le : n.shared.nextSession ≤ n'.shared.nextSession
  routes : ∀ session route', n'.shared.sessions.lookup session = some route' →
    (∃ route, n.shared.sessions.lookup session = some route ∧ Continues route route') ∨
      n.shared.nextSession ≤ session ∧ session < n'.shared.nextSession

theorem Descends.refl (n : NetworkRuntime) : Descends n n :=
  ⟨rfl, Nat.le_refl _, fun _ route h => .inl ⟨route, h, .refl route⟩⟩

variable {n n' : NetworkRuntime}

theorem Descends.trans (h : Descends n n') (h' : Descends n' n'') : Descends n n'' := by
  refine ⟨h'.config.trans h.config, h.nextSession_le.trans h'.nextSession_le, ?_⟩
  intro session route'' hr
  rcases h'.routes session route'' hr with ⟨route', hr', hc'⟩ | hn
  · rcases h.routes session route' hr' with ⟨route, hr, hc⟩ | hn
    · exact .inl ⟨route, hr, hc.trans hc'⟩
    · exact .inr ⟨hn.1, Nat.lt_of_lt_of_le hn.2 h'.nextSession_le⟩
  · exact .inr ⟨h.nextSession_le.trans hn.1, hn.2⟩

theorem descends_net {new : List Core.Event} (h : Net new n n') : Descends n n' :=
  ⟨h.config, h.nextSession_le, fun session route hr =>
    (h.routes session route hr).imp_right fun hn => ⟨hn.1, hn.2.1⟩⟩

theorem descends_netEnds (h : NetEnds n n') : Descends n n' := by
  obtain ⟨new, hn, -⟩ := h
  exact descends_net hn

variable {g g' : GameRuntime}

theorem descends_sheds (h : Sheds gone g g') : Descends g.network g'.network :=
  ⟨h.closes.config, Nat.le_of_eq h.closes.nextSession.symm,
    fun session route hr => .inl ⟨route, h.closes.routes session route hr, .refl route⟩⟩

variable {session : Handle}

theorem descends_sent (h : Sent kind session payload g g' r) : Descends g.network g'.network := by
  cases h with
  | refused e => exact .refl _
  | admitted => exact ⟨rfl, Nat.le_refl _, fun _ route hr => .inl ⟨route, hr, .refl route⟩⟩

theorem descends_publishes {endpoint : Handle}
    (h : Publishes g endpoint session old serverResume g' r) : Descends g.network g'.network := by
  cases h with
  | lost hs => exact descends_sheds hs
  | broken => exact .refl _
  | announced _ _ hs =>
    have hd := descends_sheds hs
    exact hd

theorem descends_converts (h : Converts env g event g' r) : Descends g.network g'.network := by
  cases h with
  | shed hsh => exact descends_sheds hsh
  | rejected => exact descends_net (net_authDecide _ _ _ _)
  | registered | unexpected => exact .refl _
  | opened _ _ _ _ _ hs =>
    have hd := descends_sent hs
    exact hd
  | joined => exact .refl _
  | answered _ _ hs => exact descends_sent hs
  | selected _ _ hs =>
    have hd := descends_sent hs
    exact hd
  | confirmed _ _ hs => exact descends_sent hs
  | serverCompleted _ _ _ _ _ hs hp =>
    have hd := descends_publishes hp
    rw [hs.core] at hd
    exact ⟨hd.config, hd.nextSession_le, hd.routes⟩
  | clientCompleted _ _ _ _ _ hp =>
    have hd := descends_publishes hp
    exact hd
  | buffered | passed => exact .refl _

theorem descends_establish (n : NetworkRuntime) (session : Handle) (room : Bool) :
    Descends n (n.establish session room) := by
  rcases net_establish n session room with he | ⟨route, -, -, -, -, hn⟩
  · exact descends_netEnds he
  · exact descends_net hn

theorem descends_deliver (n : NetworkRuntime) (session : Handle) (delivery : NetworkRuntime.Delivery)
    (room : Bool) : Descends n (n.deliver session delivery room) := by
  rcases net_deliver n session delivery room with he | ⟨route, -, -, hn⟩
  · exact descends_netEnds he
  · exact descends_net hn

theorem descends_accept (n : NetworkRuntime) (endpoint : Handle)
    (peer : Transport.Config.SocketAddr) (peerKey join : Bytes) (room : Bool) :
    Descends n (n.accept endpoint peer peerKey join room) := by
  rcases net_accept n endpoint peer peerKey join room with he | ⟨-, hn, -⟩
  · exact descends_netEnds he
  · exact descends_net hn

theorem descends_lose (n : NetworkRuntime) (index : ℕ) : Descends n (n.lose index) := by
  rcases lose_cases n index with hs | ⟨event, -, -, hl⟩
  · rw [hs]
    exact .refl n
  · rw [hl]
    exact ⟨rfl, Nat.le_refl _, fun _ route h => .inl ⟨route, h, .refl route⟩⟩

theorem descends_announceEndpoint (n : NetworkRuntime) (event : EventType) (endpoint : Handle) :
    Descends n (announceEndpoint n event endpoint) := by
  obtain ⟨new, hn, -⟩ := net_announceEndpoint n event endpoint
  exact descends_net hn

theorem descends_issues (h : Issues g session g' r) : Descends g.network g'.network := by
  cases h with
  | refused e => exact .refl _
  | sent _ _ _ _ _ hs =>
    have hd := descends_sent hs
    exact hd
  | undone e => exact .refl _

def Gone (session : Handle) (n : NetworkRuntime) : Prop :=
  n.shared.sessions.lookup session = none ∧ session < n.shared.nextSession

theorem Gone.descends (h : Gone session n) (hn : Descends n n') : Gone session n' := by
  refine ⟨?_, Nat.lt_of_lt_of_le h.2 hn.nextSession_le⟩
  rcases hr : n'.shared.sessions.lookup session with - | route
  · rfl
  rcases hn.routes session route hr with ⟨old, ho, -⟩ | hf
  · rw [h.1] at ho
    cases ho
  · exact absurd h.2 (Nat.not_lt.mpr hf.1)

theorem Gone.not_live (h : Gone session n) : ¬Live n session := by
  rintro ⟨-, route, hr, -⟩
  rw [h.1] at hr
  cases hr

theorem descends_keeps (n : NetworkRuntime) : TableKeeps anything fun g => Descends n g.network where
  shed h hs := h.trans (descends_sheds hs)
  sent h _ hs := h.trans (descends_sent hs)
  rescheduled _ h := h
  repeated h _ _ hs := h.trans (descends_sent hs)
  listened h _ _ := ⟨h.config, h.nextSession_le, h.routes⟩
  connected h _ _ := ⟨h.config, h.nextSession_le, h.routes⟩
  decided h _ := h.trans (descends_net (net_authDecide _ _ _ _))
  issued h _ hi := h.trans (descends_issues hi)
  scheduled h _ _ := h
  latest h _ _ := h
  flushed h hf := by
    rw [hf.core]
    exact ⟨h.config, h.nextSession_le, h.routes⟩
  ended h hn := h.trans (descends_netEnds hn)
  stopped h := h.trans (descends_netEnds (netEnds_stop _))
  accepted h _ := h.trans (descends_accept _ _ _ _ _ _)
  joined h _ := h.trans (descends_net (net_join _ _ _).1)
  established h _ := h.trans (descends_establish _ _ _)
  delivered h _ := h.trans (descends_deliver _ _ _ _)
  announced h := h.trans (descends_announceEndpoint _ _ _)
  lost h _ := h.trans (descends_lose _ _)
  same h hs := by
    rw [hs.core]
    exact ⟨h.config, h.nextSession_le, h.routes⟩
  converted h _ _ _ hc := by
    have hd := descends_converts hc
    exact h.trans hd

/-- **A step registers sessions under new handles only.** -/
theorem descends_step (g : GameRuntime) (input : Input) :
    Descends g.network (GameRuntime.step g input).network :=
  (descends_keeps g.network).keeps.step (.refl _) trivial

/-! ### The slot of an old session -/

theorem validate_of_sent {control : Selection}
    (h : (sendRangeControl env g session control).2 = .ok ()) :
    (sendRangeControl env g session control).1.network.validatePayloadLen session 0 = .ok () := by
  unfold sendRangeControl sendControl at h ⊢
  split at h
  · cases h
  rename_i envelope he
  have hl : 20 ≤ envelope.length := by
    rw [Envelope.encode_eq_ok he, Envelope.length_envelopeBytes, length_selectionPayload]
    decide
  unfold NetworkRuntime.sendGameControl at h ⊢
  split at h
  · cases h
  rename_i bytes ho
  unfold offer at ho
  split at ho
  · cases ho
  rename_i target out hp
  unfold Transport.Sending.sendGameControl at hp
  split_ifs at hp
  obtain ⟨-, ha⟩ := Transport.Sending.admitted_of_prepare hp
  obtain ⟨route, hr, hes, ht⟩ := ha.route
  have hf : exceedsTarget route.target (0 + Protocol.Framing.headerLen) = false := by
    have hs := ha.target_fits
    rw [ht]
    unfold exceedsTarget at hs ⊢
    split at hs
    · have := of_decide_eq_false hs
      refine decide_eq_false ?_
      unfold Protocol.Framing.headerLen
      omega
    · rfl
  unfold NetworkRuntime.validatePayloadLen
  rw [if_neg (by rw [ha.running]; decide), if_neg (Nat.not_lt_zero _)]
  rw [hr]
  dsimp only
  rw [if_neg (by rw [hes]; decide), if_neg (by rw [hf]; decide)]

/-- The winner is as it was: it is in the slot, the mark of a kick is unchanged, and without one the
acknowledged winner is announced. -/
structure Undisturbed (g g' : GameRuntime) (old winner : Handle) : Prop where
  inflight : g'.resume.inflightServer.lookup old = some winner
  revoked : g'.resume.revokedInflight.lookup old = g.resume.revokedInflight.lookup old
  announced : g'.resume.revokedInflight.lookup old = none → ∀ env endpoint, env.vanishes = false →
    g'.network.validatePayloadLen winner 0 = .ok () →
    (publishRangeReady env g' endpoint winner (some old) true).2 =
      .ok (some (.sessionResumed endpoint old winner))

theorem undisturbed_of (hi : g'.resume.inflightServer.lookup old = some winner)
    (hr : g'.resume.revokedInflight.lookup old = g.resume.revokedInflight.lookup old) :
    Undisturbed g g' old winner := by
  refine ⟨hi, hr, ?_⟩
  intro hn env endpoint hs hv
  have hc : ¬((g'.resume.revokedInflight.lookup old).isSome = true ∨
      g'.resume.inflightServer.lookup old ≠ some winner) := by
    rw [hn, hi]
    simp
  unfold publishRangeReady
  rw [if_neg (by rw [hs]; decide)]
  dsimp only
  rw [hv]
  rw [if_pos rfl, if_neg hc]
  rfl

theorem undisturbed_forget (hn : session ≠ winner)
    (h : g.resume.inflightServer.lookup old = some winner) :
    Undisturbed g (g.forgetReadySession session) old winner := by
  refine undisturbed_of ?_ ?_
  · change (filter g.resume.inflightServer _).lookup old = some winner
    rw [lookup_filter, h, Option.filter_some, if_pos (decide_eq_true hn.symm)]
  change (filter g.resume.revokedInflight _).lookup old = _
  rw [lookup_filter]
  have hk : decide (g.resume.inflightServer.lookup old ≠ some session) = true := by
    rw [h]
    exact decide_eq_true fun he => hn (Option.some.inj he).symm
  rcases g.resume.revokedInflight.lookup old with - | mark
  · rfl
  · rw [Option.filter_some, if_pos hk]

/-- **When a losing candidate leaves the winner alone**: an acknowledged candidate that finds another
one in the slot of its old session leaves it there exactly when its own route goes between its READY
and its publication. -/
theorem losing_candidate_undisturbed_iff {env : Env} {g : GameRuntime} {endpoint : Handle}
    {loser winner old : Handle} {state : RangeSession} {control : Selection} (hn : loser ≠ winner)
    (hi : g.resume.inflightServer.lookup old = some winner)
    (hp : state.phase = .serverAwaitAck) (ho : state.oldSession = some old)
    (hre : state.serverResume = true) (hse : state.selected = some control.version)
    (hh : state.serverHandle = control.serverHandle)
    (hr : (sendRangeControl env g loser (state.control ready)).2 = .ok ()) :
    Undisturbed g (acceptAck env g endpoint loser state control).1 old winner ↔
      env.vanishes = true := by
  have hva := validate_of_sent hr
  have hsen : Sent .protocol loser (selectionPayload (state.control ready)) g
      (sendRangeControl env g loser (state.control ready)).1
      (sendRangeControl env g loser (state.control ready)).2 := sent_sendControl _ _ _ _ _
  have hm : ¬(state.selected ≠ some control.version ∨
      state.serverHandle ≠ control.serverHandle) := by
    simp only [not_or, not_not]
    exact ⟨hse, hh⟩
  have hst : ¬state.phase = .serverReady := by
    rw [hp]
    decide
  unfold acceptAck
  rw [if_neg hm]
  dsimp only
  rw [hr]
  rw [if_neg hst]
  generalize (sendRangeControl env g loser (state.control ready)).1 = g₁ at hsen hva ⊢
  have hs : g₁.resume = g.resume := by rw [hsen.core]
  unfold publishRangeReady
  by_cases hv : env.vanishes = true
  · obtain ⟨e, he⟩ := validate_drop g₁.network loser .ioError false 0
    refine iff_of_true ?_ hv
    rw [if_pos hv]
    dsimp only [setSession]
    rw [he]
    have hf : Undisturbed { g₁ with
          network := g₁.network.drop loser .ioError false
          range := RangeRuntimeState.completeBuffered { g₁.range with
            sessions := g₁.range.sessions.insert loser { state with phase := .serverReady } } loser }
        _ old winner := undisturbed_forget hn (hs ▸ hi)
    exact ⟨hf.inflight, hf.revoked.trans (by rw [← hs]), hf.announced⟩
  · refine iff_of_false ?_ hv
    rintro ⟨hk, -, -⟩
    rw [if_neg hv] at hk
    dsimp only [setSession] at hk
    rw [hva] at hk
    have hl : (g₁.resume.revokedInflight.lookup old).isSome = true ∨
        g₁.resume.inflightServer.lookup old ≠ some loser := by
      rw [hs, hi]
      exact .inr fun heq => hn (Option.some.inj heq).symm
    rw [if_pos hre, ho] at hk
    dsimp only at hk
    rw [if_pos hl] at hk
    change (filter (g₁.resume.inflightServer.erase old) _).lookup old = some winner at hk
    rw [lookup_filter, lookup_erase_ite, if_pos rfl] at hk
    cases hk

/-- Session 1 was given two tickets in turn, and sessions 2 and 3 redeemed them and were opened. -/
def contested : List Input :=
  ticketed ++ joining 2 (sampleNonce 2) (some (sampleTicket 3)) ++
    [.issueResumeTicket calm (fun _ => some (sampleNonce 4)) 1 [9]] ++
    joining 3 (sampleNonce 5) (some (sampleTicket 4))

def loserState : RangeSession where
  endpoint := 1
  protocol := sampleProtocol
  nonce := sampleNonce 2
  selected := some 2
  serverHandle := 2
  oldSession := some 1
  serverResume := true
  phase := .serverAwaitAck
  deadline := 4000
  nextRetry := 1100
  buffered := []
  bufferedBytes := 0

theorem losing_candidate_undisturbed_vanished :
    Undisturbed (machine.run newServer contested)
      (acceptAck { calm with vanishes := true } (machine.run newServer contested) 1 2 loserState
        ⟨Controls.ack, sampleNonce 2, 7, 2, 2⟩).1 1 3 :=
  (losing_candidate_undisturbed_iff (by decide) (by decide +kernel) rfl rfl rfl rfl rfl
    (by decide +kernel)).mpr rfl

/-- **Both candidates are lost**: session 3 is in the slot of session 1 when session 2 is
acknowledged, which empties the slot; session 3 is acknowledged next and no takeover is ever
announced. -/
theorem losing_candidate_discards_winner :
    (machine.run newServer contested).resume.inflightServer.lookup 1 = some 3 ∧
      (machine.run newServer contested).range.sessions.lookup 2 = some loserState ∧
      (machine.run newServer (contested ++ acknowledging 2 (sampleNonce 2))
        ).resume.inflightServer.lookup 1 = none ∧
      (machine.run newServer (contested ++ acknowledging 2 (sampleNonce 2) ++
        acknowledging 3 (sampleNonce 5))).published = [.sessionReady 1 1] := by
  decide +kernel

/-! ### Runs of a server -/

/-- A runtime that resumes nothing itself. -/
def serves (_ : GameRuntime) : Input → Bool
  | .connect c => c.resume.isNone
  | _ => true

/-- On a server, takeovers come from redeemed tickets only. -/
structure ServerSide (g : GameRuntime) : Prop where
  clients : ∀ endpoint, g.resume.clientEndpoints.lookup endpoint = none
  pendings : ∀ session claim, g.resume.pendingServer.lookup session = some claim →
    (g.range.sessions.lookup session).isSome
  resumes : ∀ session state, g.range.sessions.lookup session = some state →
    state.oldSession.isSome → state.serverResume = true ∧
      (state.phase = .serverAwaitAck ∨ state.phase = .serverReady)

namespace ServerSide

variable {g g' : GameRuntime}

theorem same (h : ServerSide g) (hr : g'.resume = g.resume)
    (hs : g'.range.sessions = g.range.sessions) : ServerSide g' := by
  refine ⟨?_, ?_, ?_⟩
  · rw [hr]
    exact h.clients
  · rw [hr, hs]
    exact h.pendings
  · rw [hs]
    exact h.resumes

theorem sheds (h : ServerSide g) (hs : Sheds gone g g') : ServerSide g' where
  clients endpoint := hs.resuming.lookup_none (h.clients endpoint)
  pendings session claim hc := by
    have hk : session ∉ gone := by
      intro hi
      rw [(hs.forgotten session hi).pending] at hc
      cases hc
    rw [hs.sessions.kept hk]
    exact h.pendings session claim (hs.pending session claim hc)
  resumes session state hst := h.resumes session state (hs.sessions.sub session state hst)

theorem insert (h : ServerSide g) (session : Handle) (state : RangeSession)
    (hc : Sub g'.resume.clientEndpoints g.resume.clientEndpoints)
    (hp : ∀ s claim, g'.resume.pendingServer.lookup s = some claim →
      s = session ∨ g.resume.pendingServer.lookup s = some claim)
    (hs : g'.range.sessions = g.range.sessions.insert session state)
    (hst : state.oldSession.isSome → state.serverResume = true ∧
      (state.phase = .serverAwaitAck ∨ state.phase = .serverReady)) : ServerSide g' where
  clients endpoint := hc.lookup_none (h.clients endpoint)
  pendings s claim hcl := by
    rw [hs, lookup_insert_ite]
    split_ifs with he
    · rfl
    · exact h.pendings s claim ((hp s claim hcl).resolve_left he)
  resumes s found hf := by
    rw [hs, lookup_insert_ite] at hf
    split_ifs at hf
    · cases hf
      exact hst
    · exact h.resumes s found hf

theorem publishes {endpoint session : Handle} (h : ServerSide g)
    (hp : Publishes g endpoint session old serverResume g' r) : ServerSide g' := by
  cases hp with
  | lost hs => exact h.sheds hs
  | broken => exact h
  | announced _ _ hs =>
    have hr : ServerSide { g with admission := g.admission.insert session () } := h.same rfl rfl
    exact (hr.sheds hs).same rfl rfl

theorem sent {g g' : GameRuntime} {kind : ControlKind} {session : Handle} {payload : Bytes}
    {r : Result Unit} (h : ServerSide g) (hs : Sent kind session payload g g' r) : ServerSide g' := by
  rw [hs.core]
  exact h.same rfl rfl

theorem completed (h : ServerSide g)
    (hs : state.oldSession.isSome → state.serverResume = true ∧ (phase = .serverAwaitAck ∨ phase =
      .serverReady)) : ServerSide (completedState g session state phase) := by
  have hse : ServerSide (g.setSession session { state with phase := phase }) :=
    h.insert session _ (.refl _) (fun _ _ hc => .inr hc) rfl hs
  have hl : (g.setSession session { state with phase := phase }).range.sessions.lookup session =
      some { state with phase := phase } := AList.lookup_insert _
  refine hse.insert session { state with phase := phase, bufferedBytes := 0, buffered := [] }
    (.refl _) (fun _ _ hc => .inr hc) ?_ hs
  change (RangeRuntimeState.completeBuffered _ session).sessions = _
  unfold RangeRuntimeState.completeBuffered
  rw [hl]

end ServerSide

theorem takeClaim_cases (r : ResumeRuntimeState) (endpoint session : Handle) :
    (∃ claim, r.pendingServer.lookup session = some claim ∧ takeClaim r endpoint session =
      ({ r with
        pendingServer := r.pendingServer.erase session
        inflightServer := r.inflightServer.insert claim.oldSession session },
        some claim.oldSession, true)) ∨
    r.pendingServer.lookup session = none ∧ takeClaim r endpoint session =
      ({ r with clientEndpoints := r.clientEndpoints.erase endpoint },
        r.clientEndpoints.lookup endpoint, false) := by
  unfold takeClaim
  rcases hc : r.pendingServer.lookup session with - | claim
  · exact .inr ⟨rfl, rfl⟩
  · exact .inl ⟨claim, rfl, rfl⟩

theorem sub_takeClaim (r : ResumeRuntimeState) (endpoint session : Handle) :
    Sub (takeClaim r endpoint session).1.clientEndpoints r.clientEndpoints ∧
      Sub (takeClaim r endpoint session).1.pendingServer r.pendingServer := by
  rcases takeClaim_cases r endpoint session with ⟨claim, -, ht⟩ | ⟨-, ht⟩
  · rw [ht]
    exact ⟨.refl _, .erase _ _⟩
  · rw [ht]
    exact ⟨.erase _ _, .refl _⟩

namespace ServerSide

theorem converts (h : ServerSide g) (hc : Converts env g event g' r) : ServerSide g' := by
  obtain ⟨hcli, hpe⟩ := sub_takeClaim g.resume event.endpoint event.session
  have htr : ∀ transport state, (state.oldSession.isSome →
      state.serverResume = true ∧ (state.phase = .serverAwaitAck ∨ state.phase = .serverReady)) →
      ServerSide ((withTrackers g event transport).setSession event.session state) :=
    fun transport state hst =>
      h.insert _ _ hcli (fun s claim hcl => .inr (hpe s claim hcl)) rfl hst
  -- Without a pending claim an opened session has no predecessor.
  have ht : (takeClaim g.resume event.endpoint event.session).2.1.isSome →
      (takeClaim g.resume event.endpoint event.session).2.2 = true ∧
        (g.resume.pendingServer.lookup event.session).isSome := by
    intro hs
    rcases takeClaim_cases g.resume event.endpoint event.session with ⟨claim, hcl, ht⟩ |
      ⟨-, ht⟩
    · rw [ht, hcl]
      exact ⟨rfl, rfl⟩
    · rw [ht, h.clients] at hs
      cases hs
  cases hc with
  | shed hsh => exact h.sheds hsh
  | rejected => exact ⟨h.clients, h.pendings, h.resumes⟩
  | @registered join protocol tickets version claim e =>
    refine h.insert event.session (candidate env event join version) (.refl _) ?_ rfl
      (fun hs => nomatch hs)
    intro s found hf
    rcases claim with - | claim
    · exact .inr hf
    change (g.resume.pendingServer.insert event.session claim).lookup s = some found at hf
    rw [lookup_insert_ite] at hf
    split_ifs at hf with he
    · exact .inl he
    · exact .inr hf
  | unexpected =>
    exact ⟨fun endpoint => hcli.lookup_none (h.clients endpoint),
      fun s claim hcl => h.pendings s claim (hpe s claim hcl), h.resumes⟩
  | opened _ _ _ _ _ hse =>
    exact (htr _ _ fun hs => ⟨(ht hs).1, .inl rfl⟩).sent hse
  | @joined transport pending _ _ _ hn =>
    refine (htr transport _ fun hs => ?_).same rfl rfl
    obtain ⟨claim, hcl⟩ := Option.isSome_iff_exists.mp (ht hs).2
    have hi := h.pendings event.session claim hcl
    rw [hn] at hi
    cases hi
  | answered _ _ hse => exact h.sent hse
  | @selected state control _ _ ha hco hse =>
    have hset : ServerSide (g.setSession event.session (selectedState env state control)) := by
      refine h.insert _ _ (.refl _) (fun _ _ hcl => .inr hcl) rfl ?_
      intro hs
      have hph := (h.resumes _ _ ha.found hs).2
      rcases hco.phase with hp | hp <;> rw [hp] at hph <;> exact absurd hph (by decide)
    exact hset.sent hse
  | confirmed _ _ hse => exact h.sent hse
  | serverCompleted ha _ _ _ _ hse hpu =>
    refine ((h.sent hse).completed fun hs => ?_).publishes hpu
    exact ⟨(h.resumes _ _ ha.found hs).1, .inr rfl⟩
  | clientCompleted ha hph _ _ _ hpu =>
    refine (h.completed fun hs => ?_).publishes hpu
    have hser := (h.resumes _ _ ha.found hs).2
    rw [hph] at hser
    exact absurd hser (by decide)
  | buffered _ _ hst =>
    have hk := h.resumes _ _ hst
    exact h.insert _ _ (.refl _) (fun _ _ hcl => .inr hcl) rfl hk
  | passed => exact h

theorem issues (h : ServerSide g) (hi : Issues g session g' r) : ServerSide g' := by
  cases hi with
  | refused e => exact ⟨h.clients, h.pendings, h.resumes⟩
  | sent _ _ _ _ _ hs =>
    rw [hs.core]
    exact ⟨h.clients, h.pendings, h.resumes⟩
  | undone e => exact ⟨h.clients, h.pendings, h.resumes⟩

end ServerSide

theorem server_keeps : TableKeeps (fun g input => serves g input = true) ServerSide where
  shed h hs := h.sheds hs
  sent h _ hs := h.sent hs
  rescheduled {g} now h := by
    refine ⟨h.clients, ?_, ?_⟩
    · intro session claim hcl
      rw [RangeRuntimeState.dueControls, lookup_mapValues, Option.isSome_map]
      exact h.pendings session claim hcl
    · intro session state hst
      rw [RangeRuntimeState.dueControls, lookup_mapValues, Option.map_eq_some_iff] at hst
      obtain ⟨before, hb, rfl⟩ := hst
      have hk := h.resumes session before hb
      unfold RangeRuntimeState.RangeSession.rescheduled
      split
      · exact hk
      · exact hk
  repeated h _ _ hs := h.sent hs
  listened h _ _ := h.same rfl rfl
  connected {g c nonce payload} h hg _ := by
    have hn : c.resume = none := Option.isNone_iff_eq_none.mp hg
    refine ⟨?_, h.pendings, h.resumes⟩
    intro endpoint
    change (c.resume.elim g.resume.clientEndpoints _).lookup endpoint = none
    rw [hn]
    exact h.clients endpoint
  decided h _ := h.same rfl rfl
  issued h _ hi := h.issues hi
  scheduled h _ _ := h.same rfl rfl
  latest h _ _ := h.same rfl rfl
  flushed h hf := by
    rw [hf.core]
    exact h.same rfl rfl
  ended h _ := h.same rfl rfl
  stopped _ := ⟨fun _ => rfl, fun _ _ hcl => (nomatch hcl), fun _ _ hst => (nomatch hst)⟩
  accepted h _ := h.same rfl rfl
  joined h _ := h.same rfl rfl
  established h _ := h.same rfl rfl
  delivered h _ := h.same rfl rfl
  announced h := h.same rfl rfl
  lost h _ := h.same rfl rfl
  same h hs := by
    rw [hs.core]
    exact h.same rfl hs.tables.sessions
  converted h _ _ _ hc := by
    refine ServerSide.converts ?_ hc
    exact h.same rfl rfl

/-! ### Kicks -/

/-- **After a kick**: no ticket, no pending claim and no candidate of the session, whose route is
gone; `base` are the announcements made before. -/
structure Kicked (old : Handle) (base : List GameEvent) (g : GameRuntime) : Prop where
  server : ServerSide g
  gone : Gone old g.network
  coherent : Coherent g.resume.tickets
  tickets : Without g.resume.tickets old
  pending : ∀ session claim, g.resume.pendingServer.lookup session = some claim →
    claim.oldSession ≠ old
  inflight : g.resume.inflightServer.lookup old = none
  published : ∃ new, g.published = base ++ new ∧ ∀ e ∈ new, e.retires ≠ some old

namespace Kicked

variable {old : Handle} {base : List GameEvent} {g g' : GameRuntime}

theorem same (h : Kicked old base g) (hr : g'.resume = g.resume)
    (hp : g'.published = g.published) (hs : ServerSide g')
    (hg : Gone old g'.network) : Kicked old base g' where
  server := hs
  gone := hg
  coherent := hr ▸ h.coherent
  tickets := hr ▸ h.tickets
  pending := hr ▸ h.pending
  inflight := hr ▸ h.inflight
  published := hp ▸ h.published

theorem sheds {gone : List Handle} (h : Kicked old base g) (hs : Sheds gone g g') :
    Kicked old base g' where
  server := h.server.sheds hs
  gone := h.gone.descends (descends_sheds hs)
  coherent := hs.tickets.coherent h.coherent
  tickets := h.tickets.loses hs.tickets
  pending session claim hc := h.pending session claim (hs.pending session claim hc)
  inflight := hs.inflight.lookup_none h.inflight
  published := hs.published ▸ h.published

theorem sent {kind : ControlKind} {session : Handle} {payload : Bytes} {r : Result Unit}
    (h : Kicked old base g) (hs : Sent kind session payload g g' r) : Kicked old base g' := by
  refine h.same ?_ ?_ (h.server.sent hs) (h.gone.descends (descends_sent hs)) <;> rw [hs.core]

/-- An announced takeover is not one of the kicked session: its candidate would be in the slot. -/
theorem publishes {endpoint session : Handle} (h : Kicked old base g)
    (hp : Publishes g endpoint session predecessor serverResume g' r)
    (hre : predecessor = some old → serverResume = true) : Kicked old base g' := by
  cases hp with
  | lost hs => exact h.sheds hs
  | broken => exact h
  | announced hl hc hs =>
    have hrea : Kicked old base { g with admission := g.admission.insert session () } :=
      h.same rfl rfl (h.server.same rfl rfl) h.gone
    have hr := hrea.sheds hs
    obtain ⟨new, hn, hot⟩ := hr.published
    refine { hr with
      server := hr.server.same rfl rfl
      published := ⟨new ++ [readyEvent endpoint session predecessor], ?_, ?_⟩ }
    · rw [← List.append_assoc, ← hn]
    intro e he
    rcases List.mem_append.mp he with he | he
    · exact hot e he
    rw [List.mem_singleton.mp he, retires_readyEvent]
    intro hol
    obtain ⟨o, ho, hsl⟩ := hc (hre hol)
    rw [hol] at ho
    cases ho
    rw [h.inflight] at hsl
    cases hsl

/-- A ticket for the kicked session cannot be sent, so none stays. -/
theorem issues (h : Kicked old base g) (hi : Issues g session g' r) : Kicked old base g' := by
  have hc := coherent_issues hi h.coherent
  have hg := h.gone.descends (descends_issues hi)
  have hs := h.server.issues hi
  cases hi with
  | refused e ht =>
    exact { h with server := hs, coherent := hc, tickets := h.tickets.loses ht }
  | @sent tickets nonce tag entry info g' ht hfr ho hwi _ hse =>
    have hwi : Without (tickets.register nonce entry) old := by
      intro n found hf
      change (tickets.entries.insert nonce entry).lookup n = some found at hf
      rw [lookup_insert_ite] at hf
      split_ifs at hf
      · cases hf
        rintro rfl
        cases hse with
        | admitted _ hl => exact h.gone.not_live (ho ▸ hl)
      · exact h.tickets.loses ht n found hf
    rw [hse.core] at hs hc hg ⊢
    exact { h with
      server := hs, gone := hg, coherent := hc, tickets := hwi }
  | @undone tickets nonce entry e ht hfr =>
    refine { h with server := hs, coherent := hc, tickets := ?_ }
    intro n found hf
    rw [lookup_remove_register hfr] at hf
    exact h.tickets.loses ht n found hf

theorem converts (h : Kicked old base g) (hc : Converts env g event g' r) : Kicked old base g' := by
  have hs := h.server.converts hc
  have hg := h.gone.descends (descends_converts hc)
  have ht := loses_converts hc
  -- Opening a session moves its claim, which is not one of the kicked session, into a slot.
  have hta : (∀ s claim, (takeClaim g.resume event.endpoint event.session).1.pendingServer.lookup s =
        some claim → claim.oldSession ≠ old) ∧
      (takeClaim g.resume event.endpoint event.session).1.inflightServer.lookup old = none := by
    refine ⟨fun s claim hcl => h.pending s claim ((sub_takeClaim _ _ _).2 s claim hcl), ?_⟩
    rcases takeClaim_cases g.resume event.endpoint event.session with ⟨claim, hcl, hta⟩ |
      ⟨-, hta⟩
    · rw [hta]
      rw [lookup_insert_ite, if_neg (h.pending _ _ hcl).symm]
      exact h.inflight
    · rw [hta]
      exact h.inflight
  cases hc with
  | shed hsh => exact h.sheds hsh
  | rejected =>
    exact ⟨hs, hg, ht.coherent h.coherent, h.tickets.loses ht, h.pending,
      h.inflight, h.published⟩
  | @registered join protocol tickets version claim e _ _ _ _ hch =>
    refine ⟨hs, hg, ht.coherent h.coherent, h.tickets.loses ht, ?_, h.inflight,
      h.published⟩
    intro s found hf
    cases hch with
    | selected => exact h.pending s found hf
    | @pinned claim nonce entry he ho =>
      change (g.resume.pendingServer.insert event.session claim).lookup s = some found at hf
      rw [lookup_insert_ite] at hf
      split_ifs at hf
      · cases hf
        exact ho ▸ h.tickets nonce entry he
      · exact h.pending s found hf
  | unexpected =>
    exact ⟨hs, hg, ht.coherent h.coherent, h.tickets.loses ht, hta.1, hta.2,
      h.published⟩
  | opened _ _ _ _ _ hse =>
    rw [hse.core] at hs hg ht ⊢
    exact ⟨hs, hg, ht.coherent h.coherent, h.tickets.loses ht, hta.1, hta.2,
      h.published⟩
  | joined =>
    exact ⟨hs, hg, ht.coherent h.coherent, h.tickets.loses ht, hta.1, hta.2,
      h.published⟩
  | answered _ _ hse => exact h.sent hse
  | selected _ _ hse =>
    rw [hse.core] at hs hg ⊢
    exact h.same rfl rfl hs hg
  | confirmed _ _ hse => exact h.sent hse
  | serverCompleted ha _ _ _ _ hse hp =>
    have hr := h.server.resumes _ _ ha.found
    have hm := h.sent hse
    refine Kicked.publishes ?_ hp ?_
    · refine hm.same rfl rfl (hm.server.completed fun hso => ?_) hm.gone
      exact ⟨(hr hso).1, .inr rfl⟩
    · intro ho
      exact (hr (by rw [ho]; rfl)).1
  | @clientCompleted state _ _ _ ha hph _ _ _ hp =>
    have hn : ¬state.oldSession.isSome := by
      intro hso
      have hs := (h.server.resumes _ _ ha.found hso).2
      rw [hph] at hs
      exact absurd hs (by decide)
    refine Kicked.publishes ?_ hp ?_
    · exact h.same rfl rfl (h.server.completed fun hso => absurd hso hn) h.gone
    · intro ho
      exact absurd (by rw [ho]; rfl) hn
  | buffered => exact h.same rfl rfl hs h.gone
  | passed => exact h

end Kicked

theorem kicked_keeps (old : Handle) (base : List GameEvent) :
    TableKeeps (fun g input => serves g input = true) (Kicked old base) where
  shed h hs := h.sheds hs
  sent h _ hs := h.sent hs
  rescheduled now h := h.same rfl rfl (server_keeps.rescheduled now h.server) h.gone
  repeated h _ _ hs := h.sent hs
  listened h _ _ := h.same rfl rfl (h.server.same rfl rfl) h.gone
  connected h hg ho :=
    { h with server := server_keeps.connected h.server hg ho }
  decided h _ := h.same rfl rfl (h.server.same rfl rfl)
    (h.gone.descends (descends_net (net_authDecide _ _ _ _)))
  issued h _ hi := h.issues hi
  scheduled h _ _ := h.same rfl rfl (h.server.same rfl rfl) h.gone
  latest h _ _ := h.same rfl rfl (h.server.same rfl rfl) h.gone
  flushed h hf := by
    rw [hf.core]
    exact h.same rfl rfl (h.server.same rfl rfl) h.gone
  ended h hn := h.same rfl rfl (h.server.same rfl rfl) (h.gone.descends (descends_netEnds hn))
  stopped h := {
    server := server_keeps.stopped h.server
    gone := h.gone.descends (descends_netEnds (netEnds_stop _))
    coherent := (loses_clear _).coherent h.coherent
    tickets := h.tickets.loses (loses_clear _)
    pending := fun _ _ hcl => nomatch hcl
    inflight := rfl
    published := h.published }
  accepted h _ := h.same rfl rfl (h.server.same rfl rfl)
    (h.gone.descends (descends_accept _ _ _ _ _ _))
  joined h _ := h.same rfl rfl (h.server.same rfl rfl)
    (h.gone.descends (descends_net (net_join _ _ _).1))
  established h _ := h.same rfl rfl (h.server.same rfl rfl)
    (h.gone.descends (descends_establish _ _ _))
  delivered h _ := h.same rfl rfl (h.server.same rfl rfl)
    (h.gone.descends (descends_deliver _ _ _ _))
  announced h := h.same rfl rfl (h.server.same rfl rfl)
    (h.gone.descends (descends_announceEndpoint _ _ _))
  lost h _ := h.same rfl rfl (h.server.same rfl rfl) (h.gone.descends (descends_lose _ _))
  same h hs := by
    have hse := server_keeps.same h.server hs
    rw [hs.core] at hse ⊢
    exact h.same rfl rfl hse h.gone
  converted h _ _ _ hc := by
    refine Kicked.converts ?_ hc
    exact h.same rfl rfl (h.server.same rfl rfl) h.gone

theorem revokeResumeSession_spec (hc : Coherent g.resume.tickets)
    (old : Handle) :
    Without (g.revokeResumeSession old).resume.tickets old ∧
      (∀ session claim, (g.revokeResumeSession old).resume.pendingServer.lookup session = some claim →
        claim.oldSession ≠ old) ∧
      (g.revokeResumeSession old).resume.inflightServer.lookup old = none := by
  obtain ⟨gone, ha, hs⟩ := sheds_discards
    (pendingOf g.resume old ++ (g.resume.inflightServer.lookup old).toList) .cancelled
    { g with resume := revokeClaims g.resume old }
  refine ⟨?_, ?_, ?_⟩
  · exact (without_revokeSession hc old).loses hs.tickets
  · intro session claim hcl
    have hf : (filter g.resume.pendingServer fun _ claim => claim.oldSession ≠ old).lookup
        session = some claim := hs.pending session claim hcl
    rw [lookup_filter, Option.filter_eq_some_iff] at hf
    exact of_decide_eq_true hf.2
  · rcases hsl : (g.revokeResumeSession old).resume.inflightServer.lookup old with - | candidate
    · rfl
    -- A candidate in the slot was discarded, and a discarded session is in no slot.
    have hb : g.resume.inflightServer.lookup old = some candidate :=
      hs.inflight old candidate hsl
    have hg : candidate ∈ gone :=
      ha candidate (List.mem_append_right _ (by rw [hb]; exact List.mem_singleton_self _))
    exact absurd hsl ((hs.forgotten candidate hg).inflight old)

theorem gone_closeSession (ho : old < g.network.shared.nextSession) :
    Gone old (g.closeSession old).1.network := by
  have hn : old < (g.revokeResumeSession old).network.shared.nextSession := by
    obtain ⟨gone, hsh⟩ := sheds_revokeResumeSession g old
    exact ho.trans_eq hsh.closes.nextSession.symm
  have hc := lookup_closeSession (g.revokeResumeSession old).network old .cancelled
  have hs := closes_closeSession (g.revokeResumeSession old).network old .cancelled
  unfold GameRuntime.closeSession
  dsimp only
  split
  · rename_i network e hr
    rw [hr] at hc hs
    exact ⟨hc, hn.trans_eq hs.2.nextSession.symm⟩
  · rename_i network hr
    rw [hr] at hc hs
    exact ⟨hc, hn.trans_eq hs.2.nextSession.symm⟩

theorem sheds_closeSession_rest (g : GameRuntime) (old : Handle) :
    ∃ gone, Sheds gone (g.revokeResumeSession old) (g.closeSession old).1 := by
  have hc := closes_closeSession (g.revokeResumeSession old).network old .cancelled
  unfold GameRuntime.closeSession
  dsimp only
  split
  · rename_i network e hr
    rw [hr] at hc
    exact ⟨[], .of_network hc.1 hc.2⟩
  · rename_i network hr
    rw [hr] at hc
    exact ⟨[] ++ [old], (Sheds.of_network hc.1 hc.2).trans
      (sheds_forgetReadySession _ old)⟩

theorem kicked_closeSession (hs : ServerSide g) (hc : Coherent g.resume.tickets)
    (ho : old < g.network.shared.nextSession) :
    Kicked old (g.closeSession old).1.published (g.closeSession old).1 := by
  obtain ⟨ht, hp, hsl⟩ := revokeResumeSession_spec hc old
  obtain ⟨gone, hre⟩ := sheds_revokeResumeSession g old
  obtain ⟨gone', hr⟩ := sheds_closeSession_rest g old
  exact {
    server := (hs.sheds hre).sheds hr
    gone := gone_closeSession ho
    coherent := hr.tickets.coherent (hre.tickets.coherent hc)
    tickets := ht.loses hr.tickets
    pending := fun session claim hcl => hp session claim (hr.pending _ _ hcl)
    inflight := hr.inflight.lookup_none hsl
    published := ⟨[], (List.append_nil _).symm, nofun⟩ }

theorem server_reach (h : machine.Reach (fun g input => serves g input = true) g) :
    ServerSide g := by
  refine h.invariant ?_ fun g input hg hgu => server_keeps.keeps.step hg hgu
  rintro g ⟨config, clockRoom, ttl, maxResumeTickets, sign, hb⟩
  rw [build_spec hb]
  exact ⟨fun _ => rfl, fun _ _ hc => (nomatch hc), fun _ _ hs => (nomatch hs)⟩

/-- **A kick ends recovery**: in every run of a server, whatever happened before and whatever happens
after a registered session was closed, no takeover of it is announced any more. -/
theorem kick_revokes_recovery {g : GameRuntime}
    (hg : machine.Reach (fun g input => serves g input = true) g) {old : Handle}
    (ho : old < g.network.shared.nextSession) {inputs : List Input}
    (hr : machine.Runs (fun g input => serves g input = true) (g.closeSession old).1 inputs) :
    ∃ new, (machine.run (g.closeSession old).1 inputs).published =
        (g.closeSession old).1.published ++ new ∧
      ∀ e ∈ new, e.retires ≠ some old := by
  have hc := coherent_reach (hg.mono fun _ _ _ => trivial)
  have hk := kicked_closeSession (server_reach hg) hc ho
  exact (Machine.Runs.invariant (I := Kicked old (g.closeSession old).1.published)
    (fun _ _ h hgu => (kicked_keeps old _).keeps.step h hgu) inputs hk hr).published

theorem kick_revokes_recovery_contested :
    ∃ new, (machine.run ((machine.run newServer contested).closeSession 1).1
        (acknowledging 3 (sampleNonce 5) ++ acknowledging 2 (sampleNonce 2))).published =
        ((machine.run newServer contested).closeSession 1).1.published ++ new ∧
      ∀ e ∈ new, e.retires ≠ some 1 :=
  kick_revokes_recovery (Machine.reach_run contested (.start init_newServer) (by decide +kernel))
    (by decide +kernel) (by decide +kernel)

end Rnet.Game.Takeover
