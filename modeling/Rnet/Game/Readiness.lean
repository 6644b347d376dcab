import Rnet.Game.Handles
import Rnet.Lib.Grants

/-! # Data behind readiness

The events of a runtime are returned in the order of its stream: what was returned, what the running
poll collected and the backlog. A message of a session is lawful behind the session's readiness and
in front of its retirement. Staging keeps the stream lawful: a readiness goes in front of the early
data that its negotiation releases, a retirement takes the data of the retired session out of the
backlog, and a session whose negotiation is complete has its readiness in the stream. This needs
that a message is converted while its session is still known; without that a message of a forgotten
candidate passes. -/

namespace Rnet.Game.Readiness

open Rnet.Core Lib.BigEndian Lib.FiniteMap Lib.GuardedRun Lib.Grants
open Envelope (ControlKind envelopeBytes)
open Controls Event RangeState Game.Runtime Game.Runtime.GameRuntime Cleanup Workers
open Conversion Steps Tickets Takeover Handles

/-- A message uses its session, readiness grants it and a takeover withdraws it. -/
def roles : Roles GameEvent Handle := ⟨GameEvent.messageOf, GameEvent.readies, GameEvent.retires⟩

def emitted (g : GameRuntime) : List GameEvent := g.returned ++ g.poll.elim [] Poll.output

theorem stream_eq (g : GameRuntime) : stream g = emitted g ++ g.range.backlog := rfl

/-- The session was taken over: it has no route, and at most waits for being opened. -/
structure Retired (g : GameRuntime) (session : Handle) : Prop where
  gone : Gone session g.network
  phase : ∀ state, g.range.sessions.lookup session = some state → state.phase = .serverAwaitOpen

/-- **The stream is lawful**, up to the readiness of the sessions `next`, which is staged next. -/
structure Ordered (next : Handle → Prop) (g : GameRuntime) : Prop where
  emitted : roles.Lawful (fun _ => False) (fun _ => False) (emitted g)
  backlog : roles.Lawful (fun s => roles.Granted (Readiness.emitted g) s ∨ next s)
    (roles.Revoked (Readiness.emitted g)) g.range.backlog
  ready : ∀ s state, g.range.sessions.lookup s = some state → state.phase.isReady = true →
    next s ∨ roles.Granted (stream g) s
  retired : ∀ o, roles.Revoked (stream g) o → Retired g o

namespace Ordered

variable {next next' : Handle → Prop} {g g' : GameRuntime}

theorem weaken (h : Ordered next g) (hn : ∀ s, next s → next' s) : Ordered next' g :=
  ⟨h.emitted, h.backlog.mono (fun s _ => Or.imp_right (hn s)) fun _ _ => id,
    fun s state hs hr => (h.ready s state hs hr).imp_left (hn s), h.retired⟩

theorem lawful (h : Ordered (fun _ => False) g) :
    roles.Lawful (fun _ => False) (fun _ => False) (stream g) := by
  rw [stream_eq]
  refine Roles.lawful_append.mpr ⟨h.emitted, h.backlog.mono (fun s _ hs => ?_) fun s _ hs => ?_⟩
  · exact .inr (hs.resolve_right id)
  · exact hs.resolve_left id

theorem of_lawful (hl : roles.Lawful (fun _ => False) (fun _ => False) (stream g))
    (hrea : ∀ s state, g.range.sessions.lookup s = some state → state.phase.isReady = true →
      roles.Granted (stream g) s)
    (hre : ∀ o, roles.Revoked (stream g) o → Retired g o) : Ordered (fun _ => False) g := by
  rw [stream_eq] at hl
  obtain ⟨he, hb⟩ := Roles.lawful_append.mp hl
  refine ⟨he, hb.mono (fun s _ hs => ?_) fun s _ hs => .inr hs,
    fun s state hs hr => .inr (hrea s state hs hr), hre⟩
  exact .inl (hs.resolve_left id)

theorem frame (h : Ordered next g) (he : Readiness.emitted g' = Readiness.emitted g)
    (hb : g'.range.backlog = g.range.backlog)
    (hrea : ∀ s state', g'.range.sessions.lookup s = some state' → state'.phase.isReady = true →
      ∃ state, g.range.sessions.lookup s = some state ∧ state.phase.isReady = true)
    (hre : ∀ o, Retired g o → Retired g' o) : Ordered next g' := by
  have hs : stream g' = stream g := by rw [stream_eq, stream_eq, he, hb]
  refine ⟨he ▸ h.emitted, ?_, ?_, ?_⟩
  · rw [he, hb]
    exact h.backlog
  · intro s state' hs' hr
    obtain ⟨state, hst, hr⟩ := hrea s state' hs' hr
    rw [hs]
    exact h.ready s state hst hr
  · intro o ho
    rw [hs] at ho
    exact hre o (h.retired o ho)

end Ordered

namespace Retired

variable {g g' : GameRuntime} {session : Handle}

theorem frame (h : Retired g session) (hd : Descends g.network g'.network)
    (hs : Sub g'.range.sessions g.range.sessions) : Retired g' session :=
  ⟨h.gone.descends hd, fun state hst => h.phase state (hs _ _ hst)⟩

theorem of_eq (h : Retired g session) (hsh : g'.network.shared = g.network.shared)
    (hs : g'.range.sessions = g.range.sessions) : Retired g' session := by
  refine ⟨?_, ?_⟩
  · unfold Gone
    rw [hsh]
    exact h.gone
  · rw [hs]
    exact h.phase

theorem setSession (h : Retired g session) (other : Handle) (state : RangeSession)
    (hn : other = session → state.phase = .serverAwaitOpen) :
    Retired (g.setSession other state) session := by
  refine ⟨h.gone, fun found hf => ?_⟩
  change (g.range.sessions.insert other state).lookup session = some found at hf
  rw [lookup_insert_ite] at hf
  split_ifs at hf with he
  · cases hf
    exact hn he.symm
  · exact h.phase found hf

end Retired

/-! ### Cleanup and controls -/

theorem backlog_sheds (h : Sheds gone g g') :
    g'.range.backlog =
      g.range.backlog.filter fun e => gone.all fun session => !e.belongsTo session := by
  unfold RangeRuntimeState.backlog
  rw [h.completed, List.filter_map]
  rfl

theorem belongsTo_of_readies {e : GameEvent} (h : e.readies = some s) (session : Handle) :
    e.belongsTo session = (s == session) := by
  cases e <;> cases h <;> rfl

theorem belongsTo_of_message {e : GameEvent} (h : e.messageOf = some s) (session : Handle) :
    e.belongsTo session = (s == session) := by
  cases e <;> cases h
  rfl

theorem kept_iff {gone : List Handle} {e : GameEvent}
    (h : ∀ session, e.belongsTo session = (s == session)) :
    (gone.all fun session => !e.belongsTo session) = true ↔ s ∉ gone := by
  simp only [List.all_eq_true, Bool.not_eq_true', h, beq_eq_false_iff_ne]
  exact ⟨fun ha hi => ha s hi rfl, fun hn x hx he => hn (he ▸ hx)⟩

theorem not_used_sheds {gone : List Handle} (h : Sheds gone g g') {s : Handle} (hi : s ∈ gone) :
    ¬roles.Used g'.range.backlog s := by
  rintro ⟨e, he, hu⟩
  rw [backlog_sheds h] at he
  exact (kept_iff (belongsTo_of_message hu)).mp (List.mem_filter.mp he).2 hi

namespace Ordered

variable {next next' : Handle → Prop} {g g' : GameRuntime}

theorem sheds {gone : List Handle} (h : Ordered next g) (hs : Sheds gone g g') : Ordered next g' := by
  have hem : Readiness.emitted g' = Readiness.emitted g := by
    unfold Readiness.emitted
    rw [hs.returned, hs.poll]
  have hsu : ∀ e ∈ stream g', e ∈ stream g := by
    intro e he
    rw [stream_eq, hem, backlog_sheds hs] at he
    rw [stream_eq]
    exact (List.mem_append.mp he).elim (List.mem_append_left _) fun he =>
      List.mem_append_right _ (List.mem_filter.mp he).1
  refine ⟨hem ▸ h.emitted, ?_, ?_, ?_⟩
  · rw [hem, backlog_sheds hs]
    refine h.backlog.filter fun e _ s hg hus => ?_
    obtain ⟨u, hu, huse⟩ := hus
    rw [kept_iff (belongsTo_of_readies hg)]
    exact (kept_iff (belongsTo_of_message huse)).mp (List.mem_filter.mp hu).2
  · intro s state hst hr
    refine (h.ready s state (hs.sessions.sub _ _ hst) hr).imp_right ?_
    rintro ⟨e, he, hg⟩
    refine ⟨e, ?_, hg⟩
    rw [stream_eq] at he
    rw [stream_eq, hem, backlog_sheds hs]
    rcases List.mem_append.mp he with he | he
    · exact List.mem_append_left _ he
    refine List.mem_append_right _ (List.mem_filter.mpr ⟨he, ?_⟩)
    rw [kept_iff (belongsTo_of_readies hg)]
    intro hi
    rw [hs.sessions s, if_pos hi] at hst
    cases hst
  · rintro o ⟨e, he, hre⟩
    exact (h.retired o ⟨e, hsu e he, hre⟩).frame (descends_sheds hs) hs.sessions.sub

theorem sheds_next {session : Handle} (h : Ordered (· = session) g) (hs : Sheds gone g g')
    (hi : session ∈ gone) : Ordered (fun _ => False) g' := by
  have ha := h.sheds hs
  refine ⟨ha.emitted, ?_, ?_, ha.retired⟩
  · refine ha.backlog.mono (fun s hu hs' => ?_) fun _ _ => id
    exact hs'.imp_right fun he => not_used_sheds hs (he ▸ hi) hu
  intro s state hst hr
  refine .inr ((ha.ready s state hst hr).resolve_left ?_)
  rintro rfl
  rw [hs.sessions s, if_pos hi] at hst
  cases hst

theorem sent {kind : ControlKind} {session : Handle} {payload : Bytes} {r : Result Unit}
    (h : Ordered next g) (hs : Sent kind session payload g g' r) : Ordered next g' := by
  refine h.frame ?_ ?_ ?_ fun o ho => ho.frame (descends_sent hs) ?_
  · unfold Readiness.emitted
    rw [hs.core]
  · rw [hs.range]
  · rw [hs.range]
    exact fun _ state hst hr => ⟨state, hst, hr⟩
  · rw [hs.range]
    exact .refl _

theorem network (h : Ordered next g) (hd : Descends g.network n) :
    Ordered next { g with network := n } :=
  h.frame rfl rfl (fun _ state hs hr => ⟨state, hs, hr⟩) fun _ ho => ho.frame hd (.refl _)

theorem setSession (h : Ordered next g) (session : Handle) (state : RangeSession)
    (hp : state.phase.isReady = false)
    (hop : Retired g session → state.phase = .serverAwaitOpen) :
    Ordered next (g.setSession session state) := by
  refine h.frame rfl rfl ?_ fun o ho => ho.setSession session state fun he => hop (he ▸ ho)
  intro s found hf hr
  change (g.range.sessions.insert session state).lookup s = some found at hf
  rw [lookup_insert_ite] at hf
  split_ifs at hf
  · cases hf
    rw [hp] at hr
    cases hr
  · exact ⟨found, hf, hr⟩

end Ordered

/-! ### Completed negotiations -/

structure Stageable (g : GameRuntime) (e : GameEvent) : Prop where
  message : ∀ s, e.messageOf = some s → roles.Granted (stream g) s ∧ ¬roles.Revoked (stream g) s
  retires : ∀ o, e.retires = some o → Retired g o ∧ ¬roles.Used g.range.backlog o

def Outcome (g : GameRuntime) : Result (Option GameEvent) → Prop
  | .ok (some e) => Ordered (fun s => e.readies = some s) g ∧ Stageable g e
  | _ => Ordered (fun _ => False) g

theorem outcome_of_plain (h : Ordered (fun _ => False) g) (hp : Plain r) : Outcome g r := by
  rcases r with e | - | e
  · exact h
  · exact h
  obtain ⟨hre, hm, hr⟩ := hp e rfl
  refine ⟨h.weaken fun _ => False.elim, fun s hs => ?_, fun o ho => ?_⟩
  · rw [hm] at hs
    cases hs
  · rw [hr] at ho
    cases ho

theorem ordered_completed {session : Handle} (h : Ordered (fun _ => False) g)
    (hb : ∀ m ∈ state.buffered, m.session = session) (ho : ¬Retired g session) (phase : Phase) :
    Ordered (· = session) (completedState g session state phase) := by
  have hme : ∀ {e}, e ∈ state.buffered.map GameEvent.message → e.messageOf = some session ∧
      e.retires = none := by
    intro e he
    obtain ⟨m, hm, rfl⟩ := List.mem_map.mp he
    exact ⟨congrArg some (hb m hm), rfl⟩
  have hs : stream (completedState g session state phase) =
      stream g ++ state.buffered.map GameEvent.message := by
    rw [stream_eq, backlog_completedState, ← List.append_assoc]
    rfl
  refine ⟨h.emitted, ?_, ?_, ?_⟩
  · rw [backlog_completedState]
    refine Roles.lawful_append.mpr ⟨?_, .of_held (fun e he s hus => ?_) fun e he => (hme he).2⟩
    · exact h.backlog.mono (fun s _ => Or.imp_right False.elim) fun _ _ => id
    have heq : session = s := Option.some.inj ((hme he).1.symm.trans hus)
    refine ⟨.inl (.inr heq.symm), fun hl => ho (heq ▸ h.retired s ?_)⟩
    obtain ⟨u, hu, hre⟩ | ⟨u, hu, hre⟩ := hl
    · exact ⟨u, List.mem_append_left _ hu, hre⟩
    · exact ⟨u, List.mem_append_right _ hu, hre⟩
  · intro s found hf hr
    rw [lookup_completedState] at hf
    split_ifs at hf with heq
    · exact .inl heq
    · rw [hs]
      exact .inr (((h.ready s found hf hr).resolve_left id).append_left _)
  · rintro o ⟨e, he, hre⟩
    rw [hs] at he
    rcases List.mem_append.mp he with he | he
    · have hret := h.retired o ⟨e, he, hre⟩
      refine ⟨hret.gone, fun found hf => ?_⟩
      rw [lookup_completedState] at hf
      split_ifs at hf with heq
      · exact absurd (heq ▸ hret) ho
      · exact hret.phase found hf
    · exact nomatch (hme he).2.symm.trans hre

theorem outcome_publishes {endpoint session : Handle} (h : Ordered (· = session) g)
    (hol : ∀ o ∈ old, o < g.network.shared.nextSession) (hre : serverResume = true → old.isSome)
    (hp : Publishes g endpoint session old serverResume g' r) : Outcome g' r := by
  cases hp with
  | lost hsh hg => exact h.sheds_next hsh hg
  | broken _ hres hn =>
    have hso := hre hres
    rw [hn] at hso
    cases hso
  | @announced g₁ _ _ hsh hret =>
    have hrea : Ordered (· = session) { g with admission := g.admission.insert session () } :=
      h.frame rfl rfl (fun s state hst hr => ⟨state, hst, hr⟩) fun _ ho =>
        ho.of_eq rfl rfl
    have haf := hrea.sheds hsh
    have ha : Ordered (· = session)
        { g₁ with published := g₁.published ++ [readyEvent endpoint session old] } :=
      haf.frame rfl rfl (fun s state hst hr => ⟨state, hst, hr⟩) fun _ ho =>
        ho.of_eq rfl rfl
    refine ⟨ha.weaken fun s hs => ?_, fun s hs => ?_, fun o ho => ?_⟩
    · rw [readies_readyEvent, hs]
    · rw [messageOf_readyEvent] at hs
      cases hs
    rw [retires_readyEvent] at ho
    have hi : o ∈ old.toList := by rw [ho]; exact List.mem_singleton_self o
    refine ⟨⟨⟨hret o ho, ?_⟩, fun state hst => ?_⟩, not_used_sheds hsh hi⟩
    · exact Nat.lt_of_lt_of_eq (hol o ho) hsh.closes.nextSession.symm
    rw [hsh.sessions o, if_pos hi] at hst
    cases hst

/-! ### Conversions -/

/-- A message is converted while its session is known, and sessions that were registered are
resumed. -/
def tracked : GameRuntime → Input → Bool
  | g, .advance _ => (g.poll.bind fun p => p.batch.head?).all fun e =>
      e.eventType ≠ .message || (g.range.sessions.lookup e.session).isSome
  | g, input => resuming g input

theorem outcome_converts (h : Ordered (fun _ => False) g) (hk : Known g)
    (htr : event.eventType = .message → (g.range.sessions.lookup event.session).isSome)
    (hc : Converts env g event g' r) : Outcome g' r := by
  have hto : ∀ {sent}, Plain ((tolerate sent).map fun _ => none) := by
    intro sent e he
    rcases hse : tolerate sent with e' | u <;> rw [hse] at he <;> cases he
  -- A session that is live, or further than waiting for being opened, is not retired.
  have hli : ∀ {session}, Live g.network session → ¬Retired g session :=
    fun hl hre => hre.gone.not_live hl
  have hf : ∀ {session state}, g.range.sessions.lookup session = some state →
      state.phase ≠ .serverAwaitOpen → ¬Retired g session :=
    fun hs hn hre => hn (hre.phase _ hs)
  have hu : ∀ {transport}, Live g.network event.session →
      ¬Retired (withTrackers g event transport) event.session :=
    fun hl hre => hli hl (hre.of_eq rfl rfl)
  have ht : ∀ transport, Ordered (fun _ => False) (withTrackers g event transport) :=
    fun transport => h.frame rfl rfl (fun _ state hs hr => ⟨state, hs, hr⟩) fun _ ho =>
      ho.of_eq rfl rfl
  cases hc with
  | shed hshe hpl => exact outcome_of_plain (h.sheds hshe) hpl
  | rejected =>
    have hd := h.network (descends_net
      (net_authDecide g.network event.session false env.decisionExpired))
    refine outcome_of_plain ?_ fun e he => by cases he; exact ⟨rfl, rfl, rfl⟩
    exact hd.frame rfl rfl (fun _ state hs hr => ⟨state, hs, hr⟩) fun _ ho =>
      ho.of_eq rfl rfl
  | @registered join _ _ version _ _ _ _ _ _ _ hpl =>
    have hset := h.setSession event.session (candidate env event join version) rfl fun _ => rfl
    refine outcome_of_plain ?_ hpl
    exact hset.frame rfl rfl (fun _ state hs hr => ⟨state, hs, hr⟩) fun _ ho =>
      ho.of_eq rfl rfl
  | unexpected => exact ht _
  | opened _ _ hl _ _ hse =>
    refine outcome_of_plain (Ordered.sent ?_ hse) hto
    exact (ht _).setSession _ _ rfl fun hre => absurd hre (hu hl)
  | @joined transport pending _ _ hl =>
    refine outcome_of_plain ?_ .none
    have hset := (ht transport).setSession event.session (joinedState env event.endpoint pending
      (takeClaim g.resume event.endpoint event.session).2.1) rfl fun hre =>
        absurd hre (hu hl)
    exact hset.frame rfl rfl (fun _ state hs hr => ⟨state, hs, hr⟩) fun _ ho =>
      ho.of_eq rfl rfl
  | answered _ _ hse => exact h.sent hse
  | selected ha hco hse =>
    refine outcome_of_plain (Ordered.sent ?_ hse) hto
    refine h.setSession _ _ rfl fun hre => absurd hre (hf ha.found ?_)
    rcases hco.phase with hp | hp <;> rw [hp] <;> decide
  | confirmed _ _ hse => exact h.sent hse
  | serverCompleted ha hp _ _ _ hse hpu =>
    have hsa := hk.states _ _ ha.found
    have hop := hf ha.found (by rw [hp]; decide)
    have hsh : g.network.shared = _ := (congrArg (·.network.shared) hse.core).symm
    refine outcome_publishes (ordered_completed (h.sent hse) hsa.buffered ?_ _) ?_ hsa.resumes
      hpu
    · exact fun hre => hop (hre.of_eq hsh (by rw [hse.range]))
    · rw [hsh] at hsa
      exact hsa.old
  | clientCompleted ha hp _ _ _ hpu =>
    have hsa := hk.states _ _ ha.found
    have hop := hf ha.found (by rw [hp]; decide)
    refine outcome_publishes (ordered_completed h hsa.buffered hop _) hsa.old ?_ hpu
    exact nofun
  | @buffered message state _ _ _ _ hs hp =>
    have hset := h.setSession event.session { state with
      bufferedBytes := state.bufferedBytes + message.payload.length
      buffered := state.buffered ++ [message] } hp fun hre => hre.phase state hs
    exact hset.frame rfl rfl (fun _ found hfo hr => ⟨found, hfo, hr⟩) fun _ ho =>
      ho.of_eq rfl rfl
  | passed hty hm hrea =>
    obtain ⟨state, hs⟩ := Option.isSome_iff_exists.mp (htr hty)
    refine ⟨h.weaken fun _ => False.elim, ?_, nofun⟩
    rintro s ⟨⟩
    rw [hm]
    refine ⟨(h.ready _ state hs (hrea state hs)).resolve_left id, fun hrev => ?_⟩
    have hop := (h.retired _ hrev).phase state hs
    have hi := hrea state hs
    rw [hop] at hi
    cases hi

/-! ### Staging -/

theorem ordered_staged (h : Outcome g (.ok outcome)) (hs : Stages outcome g g') :
    Ordered (fun _ => False) g' := by
  have hsh : ∀ {o}, Retired g o → Retired g' o := by
    intro o ho
    refine ⟨?_, ?_⟩
    · rw [hs.core]
      exact ho.gone
    · rw [hs.tables.sessions]
      exact ho.phase
  rcases outcome with - | e
  · refine .of_lawful ?_ ?_ ?_
    · rw [hs.silent rfl]
      exact h.lawful
    · rw [hs.silent rfl, hs.tables.sessions]
      exact fun s state hsta hr => (h.ready s state hsta hr).resolve_left id
    · rw [hs.silent rfl]
      exact fun o ho => hsh (h.retired o ho)
  · obtain ⟨hor, hst⟩ := h
    obtain ⟨front, back, hsp, hstr, hbac, hf⟩ := hs.added e rfl
    have hb : stream g = emitted g ++ front ++ back := by
      rw [stream_eq, hsp, List.append_assoc]
    have ha : stream g' = emitted g ++ front ++ e :: back := hstr
    have hm : ∀ {x}, x ∈ stream g' ↔ x = e ∨ x ∈ stream g := by
      intro x
      simp only [ha, hb, List.mem_append, List.mem_cons]
      tauto
    refine .of_lawful ?_ ?_ ?_
    · rw [ha, List.append_assoc]
      have hba := hor.backlog
      rw [hsp] at hba
      have hi := hba.insert (e := e) (fun s hu => ?_) (fun s hg => ?_)
        fun o hre => ?_
      · exact Roles.lawful_append.mpr ⟨hor.emitted,
          hi.mono (fun s _ hs => .inr hs) fun s _ hs => hs.resolve_left id⟩
      · -- A message goes behind everything.
        have hn : e.readies = none := by
          cases e <;> cases hu
          rfl
        rw [hbac hn, List.append_nil] at hb
        obtain ⟨hgr, hrev⟩ := hst.message s hu
        rw [hb] at hgr hrev
        refine ⟨?_, fun hl => hrev ?_⟩
        · obtain ⟨x, hx, hg⟩ := hgr
          exact (List.mem_append.mp hx).imp (fun hx => ⟨x, hx, hg⟩) fun hx => ⟨x, hx, hg⟩
        obtain ⟨x, hx, hre⟩ | ⟨x, hx, hre⟩ := hl
        · exact ⟨x, List.mem_append_left _ hx, hre⟩
        · exact ⟨x, List.mem_append_right _ hx, hre⟩
      · rintro ⟨x, hx, hu⟩
        exact hf s hg x hx hu
      rintro ⟨x, hx, hu⟩
      refine (hst.retires o hre).2 ⟨x, ?_, hu⟩
      rw [hsp]
      exact List.mem_append_right _ hx
    · intro s state hsta hr
      rw [hs.tables.sessions] at hsta
      rcases hor.ready s state hsta hr with hg | ⟨x, hx, hg⟩
      · exact ⟨e, hm.mpr (.inl rfl), hg⟩
      · exact ⟨x, hm.mpr (.inr hx), hg⟩
    · rintro o ⟨x, hx, hre⟩
      rcases hm.mp hx with rfl | hx
      · exact hsh (hst.retires o hre).1
      · exact hsh (hor.retired o ⟨x, hx, hre⟩)

theorem ordered_keeps : Keeps (fun g input => tracked g input = true ∧ Known g)
    (Ordered fun _ => False) Outcome where
  shed h hs := h.sheds hs
  sent h _ hs := h.sent hs
  rescheduled now h := by
    refine h.frame rfl rfl (fun s found hfo hr => ?_) fun o ho => ⟨ho.gone, fun found hfo => ?_⟩
    · obtain ⟨state, hst, rfl⟩ := rescheduled_found hfo
      rw [phase_rescheduled] at hr
      exact ⟨state, hst, hr⟩
    · obtain ⟨state, hst, rfl⟩ := rescheduled_found hfo
      rw [phase_rescheduled]
      exact ho.phase state hst
  repeated h _ _ hs := h.sent hs
  listened h _ _ := h.frame rfl rfl (fun _ state hst hr => ⟨state, hst, hr⟩) fun _ ho =>
    ho.of_eq rfl rfl
  connected h _ _ := h.frame rfl rfl (fun _ state hst hr => ⟨state, hst, hr⟩) fun _ ho =>
    ho.of_eq rfl rfl
  decided h _ := h.network (descends_net (net_authDecide _ _ _ _))
  issued h _ hi := by
    have hres : ∀ {g} r, Ordered (fun _ => False) g →
        Ordered (fun _ => False) { g with resume := r } := fun r h =>
      h.frame rfl rfl (fun _ state hst hr => ⟨state, hst, hr⟩) fun _ ho => ho.of_eq rfl rfl
    cases hi with
    | refused => exact hres _ h
    | sent _ _ _ _ _ hse => exact (hres _ h).sent hse
    | undone => exact hres _ h
  scheduled h _ _ := h.frame rfl rfl (fun _ state hst hr => ⟨state, hst, hr⟩) fun _ ho =>
    ho.of_eq rfl rfl
  latest h _ _ := h.frame rfl rfl (fun _ state hst hr => ⟨state, hst, hr⟩) fun _ ho =>
    ho.of_eq rfl rfl
  flushed h hf := by
    rw [hf.core]
    exact h.frame rfl rfl (fun _ state hst hr => ⟨state, hst, hr⟩) fun _ ho => ho.of_eq rfl rfl
  ended h hn := h.network (descends_netEnds hn)
  stopped {g} h := by
    refine ⟨h.emitted, trivial, nofun, ?_⟩
    rintro o ⟨e, he, hrev⟩
    have ha : stream g.stop = emitted g := List.append_nil _
    rw [ha] at he
    have hre := h.retired o ⟨e, List.mem_append_left _ he, hrev⟩
    exact hre.frame (descends_netEnds (netEnds_stop _)) (.empty _)
  accepted h _ := h.network (descends_accept _ _ _ _ _ _)
  joined h _ := h.network (descends_net (net_join _ _ _).1)
  established h _ := h.network (descends_establish _ _ _)
  delivered h _ := h.network (descends_deliver _ _ _ _)
  announced h := h.network (descends_announceEndpoint _ _ _)
  lost h _ := h.network (descends_lose _ _)
  quiet {g g'} h hq := by
    refine .of_lawful ?_ ?_ ?_
    · rw [hq.stream]
      exact h.lawful
    · rw [hq.stream, hq.tables.sessions]
      exact fun s state hst hr => (h.ready s state hst hr).resolve_left id
    rw [hq.stream]
    intro o ho
    have hre := h.retired o ho
    refine ⟨?_, ?_⟩
    · rw [hq.core]
      exact hre.gone
    · rw [hq.tables.sessions]
      exact hre.phase
  converted {g p event rest env g' r} h hp hb hg hc := by
    have hpo : Ordered (fun _ => False) { g with poll := some { p with batch := rest } } := by
      refine h.frame ?_ rfl (fun _ state hst hr => ⟨state, hst, hr⟩) fun _ ho => ho.of_eq rfl rfl
      unfold emitted
      rw [hp]
      rfl
    refine outcome_converts hpo { hg.2 with } (fun ht => ?_) hc
    have hco : (g.poll.bind fun p => p.batch.head?).all (fun e =>
        e.eventType ≠ .message || (g.range.sessions.lookup e.session).isSome) = true := hg.1
    rw [hp, Option.bind_some, hb, List.head?_cons, Option.all_some, ht] at hco
    exact hco
  violated h := by
    refine outcome_of_plain (Ordered.sheds h (sheds_closeRoute _ _ _)) fun e he => ?_
    cases he
    exact ⟨rfl, rfl, rfl⟩
  ignored h := outcome_of_plain h fun e he => by cases he; exact ⟨rfl, rfl, rfl⟩
  staged h hs := ordered_staged h hs

theorem ordered_reach (h : machine.Reach (fun g input => tracked g input = true) g) :
    Ordered (fun _ => False) g := by
  have hk : ∀ {g}, machine.Reach (fun g input => tracked g input = true) g → Known g := by
    refine fun hg => known_reach (hg.mono fun g input hgu => ?_)
    cases input <;> first | exact hgu | rfl
  refine (h.assume hk).invariant ?_ fun g input hg hgu => ordered_keeps.step hg hgu
  rintro g ⟨config, clockRoom, ttl, maxResumeTickets, sign, hb⟩
  rw [build_spec hb]
  exact ⟨trivial, trivial, nofun, fun o ⟨_, he, _⟩ => (nomatch he)⟩

/-- **Data stays behind the barrier**: in every run in which messages are converted while their
session is known, a returned message follows the readiness of its session and no takeover of it. -/
theorem message_follows_readiness {g : GameRuntime}
    (hg : machine.Reach (fun g input => tracked g input = true) g) {pre post : List GameEvent}
    {m : GameMessage} (hr : g.returned = pre ++ .message m :: post) :
    (∃ e ∈ pre, e.readies = some m.session) ∧ ∀ e ∈ pre, e.retires ≠ some m.session := by
  have hl := (ordered_reach hg).lawful
  have hs : stream g = pre ++ .message m :: (post ++ (g.poll.elim [] Poll.output ++
      g.range.backlog)) := by
    unfold stream
    rw [hr]
    simp only [List.append_assoc, List.cons_append]
  rw [hs] at hl
  obtain ⟨hgr, hrev⟩ := hl.spec (k := m.session) rfl
  exact ⟨hgr, fun e he hre => hrev ⟨e, he, hre⟩⟩

def sampleMessage (session : Handle) (b : UInt8) : GameMessage where
  endpoint := 1
  session := session
  sequence := none
  tick := none
  correlationId := 0
  payload := [b]

theorem message_follows_readiness_ready : ∃ pre,
    (machine.run newServer (readied ++ receiving 1 42 :: polling)).returned =
      pre ++ [.message (sampleMessage 1 42)] ∧
    (∃ e ∈ pre, e.readies = some 1) ∧ ∀ e ∈ pre, e.retires ≠ some 1 := by
  have hr : (machine.run newServer (readied ++ receiving 1 42 :: polling)).returned =
      (machine.run newServer readied).returned ++ .message (sampleMessage 1 42) :: [] := by
    decide +kernel
  exact ⟨_, hr, message_follows_readiness
    (Machine.reach_run (readied ++ receiving 1 42 :: polling) (.start init_newServer)
    (by decide +kernel))
    hr⟩

/-- A candidate's early data is in the queue when the candidate is closed, and is returned although
the candidate was never ready. -/
theorem message_of_closed_candidate :
    machine.init newServer ∧ ∃ inputs, let g := machine.run newServer inputs
      .message (sampleMessage 1 42) ∈ g.returned ∧ ∀ e ∈ stream g, e.readies ≠ some 1 :=
  ⟨init_newServer, .listen .tcp sampleProtocol (.ok ()) :: joining 1 (sampleNonce 1) none ++
    [receiving 1 42, .closeSession 1] ++ polling, by decide +kernel⟩

end Rnet.Game.Readiness
