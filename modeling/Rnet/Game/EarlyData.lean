import Rnet.Game.Announcements
import Rnet.Game.Outcomes
import Rnet.Game.Readiness

/-! # Early data is returned in order

Data that arrives while a session negotiates is kept back. When the negotiation completes, it goes
behind the backlog and the readiness is inserted in front of it, while other sessions' events are
already waiting there and are drained in pieces. The stream of a runtime is what it returned, what
the running poll collected and the backlog, in this order; the share of a session in it is compared
with what arrived for the session, which is recorded beside the runtime. -/

namespace Rnet.Game.EarlyData

open Rnet.Core Lib.BigEndian Lib.FiniteMap Lib.GuardedRun
open Envelope (ControlKind envelopeBytes)
open Controls Event RangeState Network Game.Runtime Game.Runtime.GameRuntime Cleanup Workers
open Conversion Steps Tickets
open Takeover (Gone)
open Handles (rescheduled_found phase_rescheduled)
open Readiness Announcements Outcomes

/-! ### What arrives -/

def converting (g : GameRuntime) : Input → Option Core.Event
  | .advance _ => g.poll.bind fun p => p.batch.head?
  | _ => none

def incoming (g : GameRuntime) (input : Input) : Option GameMessage :=
  (converting g input).bind fun event =>
    if event.eventType = .message then (decodeBusinessMessage g event).toOption else none

/-- A runtime with the messages that arrived for each session: while it negotiated, and when it was
ready. -/
structure Observed where
  runtime : GameRuntime
  early : Handle → List GameMessage
  later : Handle → List GameMessage

def record (log : Handle → List GameMessage) (m : GameMessage) : Handle → List GameMessage :=
  Function.update log m.session (log m.session ++ [m])

/-- A message arrives while the runtime turns into `next`; the messages of unknown sessions do not
count. -/
def arrive (w : Observed) (next : GameRuntime) (m : GameMessage) : Observed :=
  match w.runtime.range.sessions.lookup m.session with
  | none => { w with runtime := next }
  | some state =>
    if state.phase.isReady then { w with runtime := next, later := record w.later m }
    else { w with runtime := next, early := record w.early m }

def step (w : Observed) (input : Input) : Observed :=
  match incoming w.runtime input with
  | none => { w with runtime := GameRuntime.step w.runtime input }
  | some m => arrive w (GameRuntime.step w.runtime input) m

def machine : Machine Observed Input where
  init w := GameRuntime.machine.init w.runtime ∧ w.early = (fun _ => []) ∧ w.later = fun _ => []
  step := step

/-! ### The share of a session -/

def concerns (s : Handle) (e : GameEvent) : Bool := e.readies == some s || e.messageOf == some s

/-- **The share of a session in a stream.** -/
def part (s : Handle) (l : List GameEvent) : List GameEvent := l.filter (concerns s)

@[simp] theorem part_append (s : Handle) (l l' : List GameEvent) :
    part s (l ++ l') = part s l ++ part s l' := List.filter_append l l'

theorem part_cons_of_not (h : concerns s e = false) (l : List GameEvent) :
    part s (e :: l) = part s l :=
  List.filter_cons_of_neg (by rw [h]; exact Bool.false_ne_true)

theorem part_cons (h : concerns s e = true) (l : List GameEvent) :
    part s (e :: l) = e :: part s l := List.filter_cons_of_pos h

theorem concerns_of_readies (h : e.readies = some s) (t : Handle) : concerns t e = (s == t) := by
  cases e <;> cases h <;> exact Bool.or_false _

theorem concerns_message (m : GameMessage) (s : Handle) :
    concerns s (.message m) = (m.session == s) := rfl

theorem part_messages {l : List GameMessage} (h : ∀ m ∈ l, m.session = s) (t : Handle) :
    part t (l.map GameEvent.message) = if t = s then l.map GameEvent.message else [] := by
  split_ifs with heq
  · refine List.filter_eq_self.mpr fun e he => ?_
    obtain ⟨m, hm, rfl⟩ := List.mem_map.mp he
    rw [concerns_message, h m hm, heq]
    exact beq_self_eq_true s
  · refine List.filter_eq_nil_iff.mpr fun e he => ?_
    obtain ⟨m, hm, rfl⟩ := List.mem_map.mp he
    rw [concerns_message, h m hm]
    simpa using fun h => heq h.symm

theorem part_filter {gone : List Handle} (hs : s ∉ gone) (l : List GameEvent) :
    part s (l.filter fun e => gone.all fun session => !e.belongsTo session) = part s l := by
  unfold part
  rw [List.filter_filter]
  refine List.filter_congr fun e _ => ?_
  by_cases hc : concerns s e = true
  · have hb : ∀ session, e.belongsTo session = (s == session) := by
      rcases Bool.or_eq_true_iff.mp hc with h | h
      · exact belongsTo_of_readies (beq_iff_eq.mp h)
      · exact belongsTo_of_message (beq_iff_eq.mp h)
    rw [hc, (kept_iff hb).mpr hs]
    rfl
  · rw [Bool.eq_false_of_not_eq_true hc]
    rfl

/-! ### The invariant -/

/-- What a negotiation keeps back is all that arrived for it, unless the session was closed. -/
structure Waiting (early later : Handle → List GameMessage) (g : GameRuntime) (s : Handle)
    (buffered : List GameMessage) : Prop where
  nonzero : s ≠ 0
  share : part s (stream g) = []
  arrived : buffered.Sublist (early s)
  complete : buffered = early s ∨ Gone s g.network
  later : later s = []

/-- **The share of every session is what arrived for it**, apart from the sessions `but`, whose
readiness is staged next. -/
structure Arranged (early later : Handle → List GameMessage) (but : Handle → Prop)
    (g : GameRuntime) : Prop where
  own : ∀ s, ∀ m ∈ early s, m.session = s
  upcoming : ∀ s, Upcoming g s →
    ¬but s ∧ part s (stream g) = [] ∧ early s = [] ∧ later s = [] ∧ s ≠ 0
  waiting : ∀ s state, ¬but s → g.range.sessions.lookup s = some state →
    state.phase.isReady = false → Waiting early later g s state.buffered
  ready : ∀ s state, ¬but s → g.range.sessions.lookup s = some state →
    state.phase.isReady = true → ∃ e, e.readies = some s ∧
      part s (stream g) = e :: (early s ++ later s).map GameEvent.message

/-- The early data of a session is in the backlog and waits for the readiness. -/
structure Completing (early later : Handle → List GameMessage) (s : Handle) (g : GameRuntime) :
    Prop where
  phase : ∀ state, g.range.sessions.lookup s = some state → state.phase.isReady = true
  emitted : part s (emitted g) = []
  backlog : (g.range.sessions.lookup s).isSome → part s g.range.backlog = (early s).map .message
  later : later s = []

theorem gone_advances (ha : Advances new g g') (h : Gone s g.network) : Gone s g'.network := by
  refine ⟨?_, Nat.lt_of_lt_of_le h.2 ha.nextSession_le⟩
  rcases hr : g'.network.shared.sessions.lookup s with - | route'
  · rfl
  rcases ha.routes s route' hr with ⟨route, ho, -⟩ | ⟨hn, -⟩
  · rw [h.1] at ho
    cases ho
  · exact absurd h.2 (Nat.not_lt.mpr hn)

theorem Waiting.advances {early later : Handle → List GameMessage}
    (h : Waiting early later g s buffered) (ha : Advances new g g')
    (he : part s (stream g) = [] → part s (stream g') = []) : Waiting early later g' s buffered :=
  ⟨h.nonzero, he h.share, h.arrived, h.complete.imp_right (gone_advances ha), h.later⟩

namespace Arranged

variable {early later : Handle → List GameMessage} {but : Handle → Prop} {g g' : GameRuntime}
  {new : List Core.Event}

variable (h : Arranged early later but g)
include h

theorem advances (ha : Advances new g g')
    (he : ∀ s, part s (stream g) = [] → part s (stream g') = [])
    (hk : ∀ s state', g'.range.sessions.lookup s = some state' →
      part s (stream g') = part s (stream g) ∧ ∃ state, g.range.sessions.lookup s = some state ∧
        state'.phase = state.phase ∧ state'.buffered = state.buffered) :
    Arranged early later but g' := by
  refine ⟨h.own, fun s hs => ?_, fun s state' hb hs' hp => ?_,
    fun s state' hb hs' hp => ?_⟩
  · obtain ⟨hb, hpa, hl⟩ := h.upcoming s (ha.upcoming hs)
    exact ⟨hb, he s hpa, hl⟩
  · obtain ⟨hpa, state, hst, hph, hbu⟩ := hk s state' hs'
    rw [hph] at hp
    rw [hbu]
    exact (h.waiting s state hb hst hp).advances ha (he s)
  · obtain ⟨hpa, state, hst, hph, -⟩ := hk s state' hs'
    rw [hph] at hp
    rw [hpa]
    exact h.ready s state hb hst hp

theorem frame (ha : Advances new g g') (hst : stream g' = stream g)
    (hsu : Sub g'.range.sessions g.range.sessions) : Arranged early later but g' := by
  refine h.advances ha (fun s hs => ?_) fun s state hsta => ⟨?_, state, hsu s state hsta, rfl, rfl⟩
  · rw [hst]
    exact hs
  · rw [hst]

theorem of_same (hs : g'.network.shared = g.network.shared) (hp : g'.poll = g.poll)
    (hr : g'.returned = g.returned) (hb : g'.range.backlog = g.range.backlog)
    (hsu : Sub g'.range.sessions g.range.sessions) : Arranged early later but g' := by
  refine h.frame (.of_same hs ?_) ?_ hsu
  · unfold pipeline
    rw [hs, hp]
  · unfold stream
    rw [hr, hp, hb]

theorem network (ha : Advances new g { g with network := n }) :
    Arranged early later but { g with network := n } := h.frame ha rfl (.refl _)

end Arranged

theorem stream_sheds (h : Sheds gone g g') :
    stream g' = emitted g ++ g.range.backlog.filter fun e => gone.all fun session => !e.belongsTo
      session := by
  rw [stream_eq, backlog_sheds h]
  unfold emitted
  rw [h.returned, h.poll]

namespace Arranged

variable {early later : Handle → List GameMessage} {but : Handle → Prop} {g g' : GameRuntime}
  {new : List Core.Event}

theorem sheds (h : Arranged early later but g) (hs : Sheds gone g g') :
    Arranged early later but g' := by
  obtain ⟨new, ha⟩ := Advances.of_sheds hs
  refine h.advances ha (fun s hem => ?_) fun s state hst => ?_
  · rw [stream_sheds hs, part_append]
    rw [stream_eq, part_append, List.append_eq_nil_iff] at hem
    refine List.append_eq_nil_iff.mpr ⟨hem.1, ?_⟩
    refine List.filter_eq_nil_iff.mpr fun e he => ?_
    exact List.filter_eq_nil_iff.mp hem.2 e (List.mem_of_mem_filter he)
  · have hsta : s ∉ gone := by
      intro hi
      rw [hs.sessions s, if_pos hi] at hst
      cases hst
    refine ⟨?_, state, hs.sessions.sub _ _ hst, rfl, rfl⟩
    rw [stream_sheds hs, part_append, part_filter hsta, stream_eq, part_append]

theorem sent {kind : ControlKind} {session : Handle} {payload : Bytes} {r : Result Unit}
    (h : Arranged early later but g) (hs : Sent kind session payload g g' r) :
    Arranged early later but g' := by
  refine h.frame (.of_sent hs) ?_ ?_
  · unfold stream
    rw [hs.core]
  · rw [hs.range]
    exact .refl _

theorem setSession (h : Arranged early later but g) {session : Handle}
    (hp : state.phase.isReady = false) (hwa : Waiting early later g session state.buffered) :
    Arranged early later but (g.setSession session state) := by
  refine ⟨h.own, h.upcoming, fun s found hb hf hn => ?_, fun s found hb hf hr => ?_⟩
  all_goals
    change (g.range.sessions.insert session state).lookup s = some found at hf
    rw [lookup_insert_ite] at hf
    split_ifs at hf with he
  · cases hf
    rw [he]
    exact { hwa with }
  · exact { h.waiting s found hb hf hn with }
  · cases hf
    rw [hp] at hr
    cases hr
  · exact h.ready s found hb hf hr

end Arranged

theorem Completing.sheds {early later : Handle → List GameMessage} (h : Completing early later s g)
    (hs : Sheds gone g g') : Completing early later s g' := by
  refine ⟨fun state hsta => h.phase state (hs.sessions.sub _ _ hsta), ?_, fun hso => ?_, h.later⟩
  · unfold Readiness.emitted
    rw [hs.returned, hs.poll]
    exact h.emitted
  · have hst : s ∉ gone := by
      intro hi
      rw [hs.sessions s, if_pos hi] at hso
      cases hso
    rw [hs.sessions.kept hst] at hso
    rw [backlog_sheds hs, part_filter hst]
    exact h.backlog hso

/-! ### Completed negotiations -/

section Completion

variable {early later : Handle → List GameMessage} {g g' : GameRuntime}

theorem arranged_completed {session : Handle} (h : Arranged early later (fun _ => False) g)
    (hh : Heralded g) (hst : g.range.sessions.lookup session = some state)
    (hp : state.phase ≠ .serverAwaitOpen) (hno : state.phase.isReady = false) (phase : Phase)
    (hr : phase.isReady = true) :
    Arranged early later (· = session) (completedState g session state phase) ∧
      (¬Gone session g.network →
        Completing early later session (completedState g session state phase)) := by
  obtain ⟨-, hsh, ha, hc, hl⟩ := h.waiting session state id hst hno
  have how : ∀ m ∈ state.buffered, m.session = session :=
    fun m hm => h.own session m (ha.subset hm)
  have hop : ¬Upcoming g session := hh.not_upcoming hst hp
  have hstr : stream (completedState g session state phase) =
      stream g ++ state.buffered.map GameEvent.message := by
    rw [stream_eq, backlog_completedState, ← List.append_assoc]
    rfl
  have ho : ∀ {s}, s ≠ session →
      part s (stream (completedState g session state phase)) = part s (stream g) := by
    intro s hn
    rw [hstr, part_append, part_messages how, if_neg hn, List.append_nil]
  rw [stream_eq, part_append, List.append_eq_nil_iff] at hsh
  constructor
  · refine ⟨h.own, fun s hs => ?_, fun s found hn hf hno => ?_,
      fun s found hn hf hr => ?_⟩
    · obtain ⟨-, hpa, hlo⟩ := h.upcoming s hs
      have hn : s ≠ session := fun he => hop (he ▸ hs)
      exact ⟨hn, (ho hn).trans hpa, hlo⟩
    · rw [lookup_completedState, if_neg hn] at hf
      have hwa := h.waiting s found id hf hno
      exact { hwa with share := (ho hn).trans hwa.share }
    · rw [lookup_completedState, if_neg hn] at hf
      rw [ho hn]
      exact h.ready s found id hf hr
  · refine fun hro => ⟨fun found hf => ?_, hsh.1, fun _ => ?_, hl⟩
    · rw [lookup_completedState, if_pos rfl] at hf
      cases hf
      exact hr
    · rw [backlog_completedState, part_append, hsh.2, List.nil_append,
        part_messages how, if_pos rfl, hc.resolve_right hro]

def Outcome (early later : Handle → List GameMessage) (g : GameRuntime) :
    Result (Option GameEvent) → Prop
  | .ok (some e) => e.messageOf = none ∧ match e.readies with
    | none => Arranged early later (fun _ => False) g
    | some s => Arranged early later (· = s) g ∧ Completing early later s g
  | _ => Arranged early later (fun _ => False) g

theorem outcome_of_plain (h : Arranged early later (fun _ => False) g) (hp : Plain r) :
    Outcome early later g r := by
  rcases r with e | - | e
  · exact h
  · exact h
  obtain ⟨hr, hm, -⟩ := hp e rfl
  refine ⟨hm, ?_⟩
  rw [hr]
  exact h

theorem Arranged.gone {session : Handle} (h : Arranged early later (· = session) g)
    (hn : g.range.sessions.lookup session = none) : Arranged early later (fun _ => False) g := by
  have hne : ∀ {s state}, g.range.sessions.lookup s = some state → s ≠ session := by
    rintro s state hst rfl
    rw [hn] at hst
    cases hst
  exact ⟨h.own, fun s hs => ⟨id, (h.upcoming s hs).2⟩,
    fun s state _ hst => h.waiting s state (hne hst) hst,
    fun s state _ hst => h.ready s state (hne hst) hst⟩

theorem outcome_publishes {endpoint session : Handle} (h : Arranged early later (· = session) g)
    (hc : ¬Gone session g.network → Completing early later session g)
    (hp : Publishes g endpoint session old serverResume g' r)
    (hr : serverResume = true → old.isSome) : Outcome early later g' r := by
  cases hp with
  | lost hs hg =>
    refine (h.sheds hs).gone ?_
    rw [hs.sessions session, if_pos hg]
  | broken _ hre hn =>
    have hso := hr hre
    rw [hn] at hso
    cases hso
  | @announced g₁ hl _ hs =>
    have ha : Arranged early later (· = session)
        { g with admission := g.admission.insert session () } :=
      h.of_same rfl rfl rfl rfl (.refl _)
    have hc' : Completing early later session
        { g with admission := g.admission.insert session () } :=
      { hc fun hg => hg.not_live hl with }
    refine ⟨messageOf_readyEvent _ _ _, ?_⟩
    rw [readies_readyEvent]
    exact ⟨(ha.sheds hs).of_same rfl rfl rfl rfl (.refl _),
      { hc'.sheds hs with }⟩

/-- Nothing arrived for the session and nothing of it is in the stream. -/
structure Untouched (early later : Handle → List GameMessage) (g : GameRuntime) (s : Handle) :
    Prop where
  nonzero : s ≠ 0
  share : part s (stream g) = []
  early : early s = []
  later : later s = []

theorem Untouched.waiting (h : Untouched early later g s) : Waiting early later g s [] :=
  ⟨h.nonzero, h.share, List.nil_sublist _, .inl h.early.symm, h.later⟩

theorem outcome_converts (h : Arranged early later (fun _ => False) g) (hpo : Popped event g)
    (hfr : (rank event.eventType).isSome → Untouched early later g event.session)
    (hty : event.eventType ≠ .message) (hc : Converts env g event g' r) :
    Outcome early later g' r := by
  have hto : ∀ {sent}, Plain ((tolerate sent).map fun _ => none) := by
    intro sent e he
    rcases hs : tolerate sent with e' | u <;> rw [hs] at he <;> cases he
  have ht : ∀ transport, Arranged early later (fun _ => False) (withTrackers g event transport) :=
    fun transport => h.of_same rfl rfl rfl rfl (.refl _)
  cases hc with
  | shed hsh hpl => exact outcome_of_plain (h.sheds hsh) hpl
  | rejected =>
    have hd := h.network (.of_net (net_authDecide g.network event.session false
      env.decisionExpired) (List.forall_mem_nil _) .nil)
    refine outcome_of_plain (hd.of_same rfl rfl rfl rfl (.refl _)) fun e he => ?_
    cases he
    exact ⟨rfl, rfl, rfl⟩
  | @registered join _ _ version _ _ hty _ _ _ _ hpl =>
    have hse : Arranged early later (fun _ => False)
        (g.setSession event.session (candidate env event join version)) :=
      h.setSession rfl (hfr (by rw [hty]; rfl)).waiting
    exact outcome_of_plain (hse.of_same rfl rfl rfl rfl (.refl _)) hpl
  | unexpected => exact ht _
  | @opened transport state _ _ _ _ _ hst hp hs =>
    have hwa := h.waiting event.session state id hst (by rw [hp]; rfl)
    refine outcome_of_plain (Arranged.sent ?_ hs) hto
    exact (ht transport).setSession rfl { hwa with }
  | @joined transport _ hty =>
    have hwa := (hfr (by rw [hty]; rfl)).waiting
    refine outcome_of_plain ?_ .none
    exact Arranged.of_same ((ht transport).setSession rfl { hwa with }) rfl rfl rfl rfl
      (.refl _)
  | answered _ _ hs => exact h.sent hs
  | @selected state control _ _ ha hcon hs =>
    have hwa := h.waiting event.session state id ha.found (by
      rcases hcon.phase with hp | hp <;> rw [hp] <;> rfl)
    have hse : Arranged early later (fun _ => False)
        (g.setSession event.session (selectedState env state control)) :=
      h.setSession rfl hwa
    exact outcome_of_plain (hse.sent hs) hto
  | confirmed _ _ hs => exact h.sent hs
  | serverCompleted ha hp _ _ _ hs hpu =>
    have hf := ha.found
    rw [← hs.range] at hf
    obtain ⟨har, hco⟩ := arranged_completed (h.sent hs)
      (hpo.heralded.sent hs) hf (by rw [hp]; decide) (by rw [hp]; rfl)
      .serverReady rfl
    exact outcome_publishes har hco hpu
      (hpo.heralded.resumes _ _ ha.found)
  | clientCompleted ha hp _ _ _ hpu =>
    obtain ⟨har, hco⟩ := arranged_completed h hpo.heralded ha.found
      (by rw [hp]; decide) (by rw [hp]; rfl) .clientReady rfl
    exact outcome_publishes har hco hpu nofun
  | buffered ho | passed ho => exact absurd ho hty

end Completion

/-! ### Staging -/

section Staging

variable {early later : Handle → List GameMessage} {g g' : GameRuntime}

theorem part_staged (h : concerns s e = false) (hs : Stages (some e) g g') :
    part s (stream g') = part s (stream g) := by
  obtain ⟨front, back, hsp, hst, -⟩ := hs.added e rfl
  have ha : stream g' = emitted g ++ front ++ e :: back := hst
  rw [ha, stream_eq, hsp]
  simp only [part_append, part_cons_of_not h, List.append_assoc]

theorem part_readied (he : e.readies = some s) (hem : part s (emitted g) = [])
    (hb : part s g.range.backlog = (early s).map GameEvent.message) (hs : Stages (some e) g g') :
    part s (stream g') = e :: (early s).map GameEvent.message := by
  obtain ⟨front, back, hsp, hst, -, hf⟩ := hs.added e rfl
  rw [hsp, part_append] at hb
  -- What concerns the session in the backlog are messages, and those are behind the readiness.
  have hn : part s front = [] := by
    refine List.filter_eq_nil_iff.mpr fun x hx hc => ?_
    have hi : x ∈ part s front ++ part s back :=
      List.mem_append_left _ (List.mem_filter.mpr ⟨hx, hc⟩)
    rw [hb] at hi
    obtain ⟨m, -, rfl⟩ := List.mem_map.mp hi
    refine hf s he _ hx ?_
    exact congrArg some (beq_iff_eq.mp hc)
  rw [hn, List.nil_append] at hb
  have hc : concerns s e = true := by
    rw [concerns_of_readies he]
    exact beq_self_eq_true s
  have ha : stream g' = emitted g ++ front ++ e :: back := hst
  rw [ha, part_append, part_append, part_cons hc, hem, hn, hb]
  rfl

theorem sub_staged (hs : Stages outcome g g') : Sub g'.range.sessions g.range.sessions := by
  rw [hs.tables.sessions]
  exact .refl _

theorem arranged_staged (h : Outcome early later g (.ok outcome)) (hs : Stages outcome g g') :
    Arranged early later (fun _ => False) g' := by
  have ha := Advances.of_steps hs.toSame
  rcases outcome with - | e
  · exact Arranged.frame h ha (hs.silent rfl) (sub_staged hs)
  obtain ⟨hm, har⟩ := h
  rcases hr : e.readies with - | s
  · rw [hr] at har
    have hsa : ∀ s, part s (stream g') = part s (stream g) := by
      refine fun s => part_staged ?_ hs
      unfold concerns
      rw [hr, hm]
      rfl
    exact har.advances ha (fun s hem => (hsa s).trans hem) fun s state hst =>
      ⟨hsa s, state, sub_staged hs s state hst, rfl, rfl⟩
  · rw [hr] at har
    obtain ⟨har, hc⟩ := har
    have ho : ∀ {t}, t ≠ s → part t (stream g') = part t (stream g) := by
      refine fun hne => part_staged ?_ hs
      rw [concerns_of_readies hr]
      exact beq_eq_false_iff_ne.mpr hne.symm
    refine ⟨har.own, fun t ht => ?_, fun t state _ hst hn => ?_,
      fun t state _ hst hre => ?_⟩
    · obtain ⟨hne, hp, hl⟩ := har.upcoming t (ha.upcoming ht)
      exact ⟨id, (ho hne).trans hp, hl⟩
    · rw [hs.tables.sessions] at hst
      by_cases he : t = s
      · subst he
        rw [hc.phase state hst] at hn
        cases hn
      · have hwa := har.waiting t state he hst hn
        exact hwa.advances ha fun hsh => (ho he).trans hsh
    · rw [hs.tables.sessions] at hst
      by_cases he : t = s
      · subst he
        refine ⟨e, hr, ?_⟩
        rw [part_readied hr hc.emitted
          (hc.backlog (Option.isSome_of_eq_some hst)) hs, hc.later,
          List.append_nil]
      · rw [ho he]
        exact har.ready t state he hst hre

theorem stream_passed (hs : Stages (some (.message m)) g g') :
    stream g' = stream g ++ [.message m] := by
  obtain ⟨front, back, hsp, hst, hb, -⟩ := hs.added _ rfl
  rw [hb rfl] at hsp hst
  rw [List.append_nil] at hsp
  rw [hst, stream_eq, hsp]
  rfl

theorem arranged_passed (h : Arranged early later (fun _ => False) g)
    (hop : ¬Upcoming g m.session)
    (hr : ∀ state, g.range.sessions.lookup m.session = some state → state.phase.isReady = true)
    (hs : Stages (some (.message m)) g g') :
    Arranged early (if (g.range.sessions.lookup m.session).isSome then record later m else later)
      (fun _ => False) g' := by
  have ha := Advances.of_steps hs.toSame
  have ho : ∀ {t}, t ≠ m.session → part t (stream g') = part t (stream g) := by
    intro t hn
    rw [stream_passed hs, part_append, part_cons_of_not]
    · exact List.append_nil _
    · rw [concerns_message]
      exact beq_eq_false_iff_ne.mpr hn.symm
  have hl : ∀ {t}, t ≠ m.session → (if (g.range.sessions.lookup m.session).isSome then
      record later m else later) t = later t := by
    intro t hn
    split_ifs
    · exact Function.update_of_ne hn _ _
    · rfl
  refine ⟨h.own, fun t ht => ?_, fun t state _ hst hno => ?_, fun t state _ hst hp => ?_⟩
  · have hu := ha.upcoming ht
    have hn : t ≠ m.session := fun heq => hop (heq ▸ hu)
    rw [ho hn, hl hn]
    exact h.upcoming t hu
  · rw [hs.tables.sessions] at hst
    have hn : t ≠ m.session := by
      rintro rfl
      rw [hr state hst] at hno
      cases hno
    have hwa := (h.waiting t state id hst hno).advances ha fun hsh =>
      (ho hn).trans hsh
    exact { hwa with later := (hl hn).trans hwa.later }
  · rw [hs.tables.sessions] at hst
    by_cases heq : t = m.session
    · subst heq
      obtain ⟨e, he, hsh⟩ := h.ready _ state id hst hp
      refine ⟨e, he, ?_⟩
      have hc : concerns m.session (.message m) = true := beq_self_eq_true m.session
      rw [stream_passed hs, part_append, hsh, part_cons hc, if_pos (by rw [hst]; rfl)]
      unfold record
      rw [Function.update_self]
      simp only [List.map_append, List.append_assoc, List.cons_append]
      rfl
    · rw [ho heq, hl heq]
      exact h.ready t state id hst hp

end Staging

/-! ### Steps -/

section Steps

variable {early later : Handle → List GameMessage}

theorem arranged_keeps : Keeps (fun g input => converting g input = none ∧ Heralded g)
    (Arranged early later fun _ => False) (fun _ _ => False) where
  shed h hs := h.sheds hs
  sent h _ hs := h.sent hs
  rescheduled now h := by
    refine h.advances (.of_same rfl rfl) (fun _ => id) fun s found hfo => ⟨rfl, ?_⟩
    obtain ⟨state, hst, rfl⟩ := rescheduled_found hfo
    refine ⟨state, hst, phase_rescheduled state now, ?_⟩
    unfold RangeRuntimeState.RangeSession.rescheduled
    split <;> rfl
  repeated h _ _ hs := h.sent hs
  listened h _ _ := h.of_same rfl rfl rfl rfl (.refl _)
  connected h _ _ := h.of_same rfl rfl rfl rfl (.refl _)
  decided h _ := h.network (.of_net (net_authDecide _ _ _ _) (List.forall_mem_nil _) .nil)
  issued {g env draws session identity g' r} h _ hi := by
    have hr : ∀ resume, Arranged early later (fun _ => False) { g with resume := resume } :=
      fun _ => h.of_same rfl rfl rfl rfl (.refl _)
    cases hi with
    | refused => exact hr _
    | sent _ _ _ _ _ hse => exact (hr _).sent hse
    | undone => exact hr _
  scheduled h _ _ := h.of_same rfl rfl rfl rfl (.refl _)
  latest h _ _ := h.of_same rfl rfl rfl rfl (.refl _)
  flushed h hf := by
    refine h.of_same ?_ ?_ ?_ ?_ ?_ <;> rw [hf.core]
    exact .refl _
  ended h hn := by
    obtain ⟨new, ha⟩ := Advances.of_netEnds hn
    exact h.network ha
  stopped {g} h := by
    obtain ⟨new, ha⟩ := Advances.of_netEnds (g := g) (netEnds_stop g.network)
    refine (h.network ha).advances (.of_same rfl rfl) (fun s hs => ?_) fun s state hst => ?_
    · rw [stream_eq, part_append, List.append_eq_nil_iff] at hs
      have hal : stream g.stop = emitted g := List.append_nil _
      rw [hal]
      exact hs.1
    · have hc : g.stop.range.sessions = ∅ := rfl
      rw [hc, AList.lookup_empty] at hst
      cases hst
  accepted h hg := by
    obtain ⟨new, ha⟩ := advances_accept hg.2 _ _ _ _ _
    exact h.network ha
  joined h _ := h.network (advances_join _ _)
  established h _ := by
    obtain ⟨new, ha⟩ := advances_establish _ _
    exact h.network ha
  delivered h _ := by
    obtain ⟨new, ha⟩ := advances_deliver _ _ _
    exact h.network ha
  announced h := by
    obtain ⟨new, ha⟩ := advances_announceEndpoint _ _
    exact h.network ha
  lost h _ := h.network (advances_lose _)
  quiet h hq := by
    refine h.frame (.of_steps hq.toSame) hq.stream ?_
    rw [hq.tables.sessions]
    exact .refl _
  converted {g p event rest env g' r} _ hp hb hg _ := by
    have hno := hg.1
    unfold converting at hno
    rw [hp, Option.bind_some, hb] at hno
    cases hno
  violated h := h.elim
  ignored h := h.elim
  staged h _ := h.elim

/-- What buffering a message does: it is passed on, refused or kept back. -/
inductive Buffers (r : RangeRuntimeState) (m : GameMessage) :
    RangeRuntimeState → Result (Option GameEvent) → Prop
  | passed (hready : ∀ state, r.sessions.lookup m.session = some state → state.phase.isReady = true) :
      Buffers r m r (.ok (some (.message m)))
  | refused {state : RangeSession} (e : RnetError)
      (hstate : r.sessions.lookup m.session = some state) (hphase : state.phase.isReady = false) :
      Buffers r m r (.error e)
  | kept {state : RangeSession} {messages bytes : ℕ}
      (hstate : r.sessions.lookup m.session = some state) (hphase : state.phase.isReady = false) :
      Buffers r m { r with
        bufferedMessages := messages
        bufferedBytes := bytes
        sessions := r.sessions.insert m.session { state with
          bufferedBytes := state.bufferedBytes + m.payload.length
          buffered := state.buffered ++ [m] } } (.ok none)

theorem buffers_bufferMessage (r : RangeRuntimeState) (m : GameMessage) :
    Buffers r m (r.bufferMessage m).1 (r.bufferMessage m).2 := by
  unfold RangeRuntimeState.bufferMessage
  split
  · rename_i hn
    refine .passed fun state hs => ?_
    rw [hn] at hs
    cases hs
  · rename_i state hs
    by_cases hr : state.phase.isReady = true
    · rw [if_pos hr]
      refine .passed fun found hf => ?_
      rw [hs] at hf
      cases hf
      exact hr
    · rw [if_neg hr]
      have hp := Bool.eq_false_of_not_eq_true hr
      dsimp only
      split_ifs
      · exact .refused _ hs hp
      · exact .refused _ hs hp
      · exact .refused _ hs hp
      · exact .refused _ hs hp
      · exact .refused _ hs hp
      · exact .kept hs hp

theorem arranged_early (h : Arranged early later (fun _ => False) g) (hop : ¬Upcoming g m.session)
    (hsta : g.range.sessions.lookup m.session = some state) (hp : state.phase.isReady = false)
    (ha : Advances new g g') (hst : stream g' = stream g)
    (hse : ∀ s, g'.range.sessions.lookup s = if s =
      m.session then some state' else g.range.sessions.lookup s)
    (hp' : state'.phase = state.phase)
    (hb : state'.buffered = state.buffered ++ [m] ∨ state'.buffered = state.buffered ∧
      Gone m.session g'.network) : Arranged (record early m) later (fun _ => False) g' := by
  have hwa := (h.waiting _ state id hsta hp).advances ha fun hsh => by
    rw [hst]
    exact hsh
  have ho : ∀ {s}, s ≠ m.session → record early m s = early s :=
    fun hn => Function.update_of_ne hn _ _
  have hsel : record early m m.session = early m.session ++ [m] := Function.update_self _ _ _
  refine ⟨fun s x hx => ?_, fun s hs => ?_, fun s found _ hf hno => ?_,
    fun s found _ hf hr => ?_⟩
  · by_cases he : s = m.session
    · subst he
      rw [hsel] at hx
      rcases List.mem_append.mp hx with hx | hx
      · exact h.own _ x hx
      · rw [List.mem_singleton.mp hx]
    · rw [ho he] at hx
      exact h.own s x hx
  · have hu := ha.upcoming hs
    have hn : s ≠ m.session := fun he => hop (he ▸ hu)
    rw [ho hn, hst]
    exact h.upcoming s hu
  · rw [hse] at hf
    split_ifs at hf with he
    · cases hf
      subst he
      refine { hwa with arrived := ?_, complete := ?_ }
      · rw [hsel]
        rcases hb with hk | ⟨hsa, -⟩
        · rw [hk]
          exact hwa.arrived.append_right _
        · rw [hsa]
          exact hwa.arrived.trans (List.sublist_append_left _ _)
      · rcases hb with hk | ⟨-, hg⟩
        · rw [hk, hsel]
          exact hwa.complete.imp_left (congrArg (· ++ [m]))
        · exact .inr hg
    · have hsa := (h.waiting s found id hf hno).advances ha fun hsh => by
        rw [hst]
        exact hsh
      refine { hsa with arrived := ?_, complete := ?_ }
      · rw [ho he]
        exact hsa.arrived
      · rw [ho he]
        exact hsa.complete
  · rw [hse] at hf
    split_ifs at hf with he
    · cases hf
      rw [hp', hp] at hr
      cases hr
    · rw [ho he, hst]
      exact h.ready s found id hf hr

theorem arranged_resolved (h : Outcome early later g r)
    (hs : Stages (resolve event (g, r)).2 (resolve event (g, r)).1 g') :
    Arranged early later (fun _ => False) g' := by
  unfold resolve at hs
  rcases r with e | outcome
  · have hv : ∀ {g}, Arranged early later (fun _ => False) g →
        Outcome early later g (.ok (some (.protocolViolation event.endpoint event.session))) :=
      fun h => ⟨rfl, h⟩
    split_ifs at hs
    · exact arranged_staged (hv (Arranged.sheds h (sheds_closeRoute _ _ _))) hs
    · exact arranged_staged (hv h) hs
  · exact arranged_staged h hs

theorem arranged_arrive (hra : g.range = w.runtime.range)
    (h : Arranged w.early w.later (fun _ => False) g) (hpo : Popped event g)
    (ht : event.eventType = .message) (hse : m.session = event.session)
    (hs : Stages (resolve event ({ g with range := (g.range.bufferMessage m).1 },
        (g.range.bufferMessage m).2)).2
      (resolve event ({ g with range := (g.range.bufferMessage m).1 },
        (g.range.bufferMessage m).2)).1 g') :
    (arrive w g' m).runtime = g' ∧
      Arranged (arrive w g' m).early (arrive w g' m).later (fun _ => False) g' := by
  have hop : ¬Upcoming g m.session := hse ▸ hpo.data ht
  have hb := buffers_bufferMessage g.range m
  unfold arrive
  rw [← hra]
  generalize g.range.bufferMessage m = result at hb hs ⊢
  obtain ⟨r, answer⟩ := result
  cases hb with
  | passed hr =>
    have hpa := arranged_passed (g := g) h hop hr hs
    rcases hst : g.range.sessions.lookup m.session with - | state
    · rw [hst] at hpa
      exact ⟨rfl, hpa⟩
    rw [hst] at hpa
    dsimp only
    rw [if_pos (hr state hst)]
    exact ⟨rfl, hpa⟩
  | @refused state e hst hp =>
    -- The session is closed, so it never becomes ready.
    have hn : event.session ≠ 0 := hse ▸ (h.waiting _ state id hst hp).nonzero
    have hsh := sheds_closeRoute g event.session .protocolError
    obtain ⟨new, ha⟩ := Advances.of_sheds hsh
    have hg : Gone m.session (g.closeRoute event.session .protocolError).network := by
      rw [hse]
      exact ⟨lookup_closeSession _ _ _,
        Nat.lt_of_lt_of_le (hpo.issued (.inr ht)) ha.nextSession_le⟩
    have he : Arranged (record w.early m) w.later (fun _ => False)
        (g.closeRoute event.session .protocolError) := by
      refine arranged_early h hop hst hp ha rfl (fun s => ?_) rfl (.inr ⟨rfl, hg⟩)
      split_ifs with heq
      · rw [heq]
        exact hst
      · rfl
    have ho : Outcome (record w.early m) w.later (g.closeRoute event.session .protocolError)
        (.ok (some (.protocolViolation event.endpoint event.session))) := ⟨rfl, he⟩
    rw [hst]
    dsimp only
    rw [hp, if_neg Bool.false_ne_true]
    refine ⟨rfl, arranged_staged ho ?_⟩
    unfold resolve at hs
    rw [if_pos hn] at hs
    exact hs
  | @kept state counted bytes hst hp =>
    have he : Arranged (record w.early m) w.later (fun _ => False) { g with range := { g.range with
        bufferedMessages := counted
        bufferedBytes := bytes
        sessions := g.range.sessions.insert m.session { state with
          bufferedBytes := state.bufferedBytes + m.payload.length
          buffered := state.buffered ++ [m] } } } :=
      arranged_early h hop hst hp (.of_same rfl rfl) rfl
        (fun s => lookup_insert_ite _ _ _ _) rfl (.inl rfl)
    have ho : Outcome (record w.early m) w.later _ (.ok none) := he
    rw [hst]
    dsimp only
    rw [hp, if_neg Bool.false_ne_true]
    exact ⟨rfl, arranged_resolved ho hs⟩

theorem arranged_step (h : Arranged w.early w.later (fun _ => False) w.runtime)
    (hh : Heralded w.runtime) (input : Input) :
    Arranged (step w input).early (step w input).later (fun _ => False) (step w input).runtime := by
  rcases hc : converting w.runtime input with - | event
  · have hi : incoming w.runtime input = none := by
      unfold incoming
      rw [hc]
      rfl
    unfold step
    rw [hi]
    exact arranged_keeps.step h ⟨hc, hh⟩
  · -- The step converts the event in front of the batch.
    cases input with
    | advance env =>
      obtain ⟨p, hp, hhe⟩ := Option.bind_eq_some_iff.mp hc
      obtain ⟨rest, hb⟩ := List.head?_eq_some_iff.mp hhe
      have hs := stages_advance env hp hb
      have hpo := hh.popped hp hb
      have h₀ : Arranged w.early w.later (fun _ => False) (popped w.runtime p rest) := by
        refine h.frame (advances_popped hp hb) ?_ (.refl _)
        unfold stream
        rw [hp]
        rfl
      by_cases ht : event.eventType = .message
      · have hco : convertEvent env (popped w.runtime p rest) event =
            convertBusinessEvent (popped w.runtime p rest) event := by
          unfold convertEvent
          rw [ht]
        have hi : incoming w.runtime (.advance env) =
            (decodeBusinessMessage (popped w.runtime p rest) event).toOption := by
          unfold incoming
          rw [hc, Option.bind_some, if_pos ht]
          rfl
        rw [hco] at hs
        unfold convertBusinessEvent at hs
        unfold step
        rcases hd : decodeBusinessMessage (popped w.runtime p rest) event with e | m
        · rw [hd] at hi hs
          rw [hi]
          refine arranged_resolved ?_ hs
          split_ifs
          · exact h₀
          · exact h₀
        · rw [hd] at hi hs
          rw [hi]
          obtain ⟨hse, -⟩ := decodeBusinessMessage_spec hd
          obtain ⟨hr, ha⟩ := arranged_arrive (w := w)
            (g := popped w.runtime p rest) rfl h₀ hpo ht hse hs
          change Arranged _ _ _ (arrive w (GameRuntime.step w.runtime (.advance env)) m).runtime
          rw [hr]
          exact ha
      · have hi : incoming w.runtime (.advance env) = none := by
          unfold incoming
          rw [hc, Option.bind_some, if_neg ht]
        unfold step
        rw [hi]
        refine arranged_resolved (outcome_converts h₀ hpo (fun hra => ?_) ht
          (converts_convertEvent env _ event)) hs
        have hu : Upcoming w.runtime event.session := by
          refine .inr (.inr ⟨event, ?_, rfl, hra⟩)
          rw [pipeline_popped hp hb]
          exact List.mem_cons_self
        obtain ⟨-, hsh, he, hl, hn⟩ := h.upcoming _ hu
        refine ⟨hn, ?_, he, hl⟩
        refine Eq.trans (congrArg (part event.session) ?_) hsh
        unfold stream
        rw [hp]
        rfl
    | _ => cases hc

theorem runtime_step (w : Observed) (input : Input) :
    (step w input).runtime = GameRuntime.step w.runtime input := by
  unfold step arrive
  split
  · rfl
  split
  · rfl
  · split_ifs <;> rfl

theorem reach_runtime (h : machine.Reach (fun _ _ => True) w) :
    GameRuntime.machine.Reach anything w.runtime := by
  induction h with
  | start h => exact .start h.1
  | next _ _ ih =>
    change GameRuntime.machine.Reach anything (step _ _).runtime
    rw [runtime_step]
    exact .next ih trivial

/-- **In every run the share of every session is what arrived for it.** -/
theorem arranged_reach (h : machine.Reach (fun _ _ => True) w) :
    Arranged w.early w.later (fun _ => False) w.runtime := by
  induction h with
  | @start w hi =>
    obtain ⟨⟨config, clockRoom, ttl, maxResumeTickets, sign, hb⟩, hea, hl⟩ := hi
    have hstr : stream w.runtime = [] ∧ w.runtime.range.sessions = ∅ := by
      rw [build_spec hb]
      exact ⟨rfl, rfl⟩
    have hz : ¬Upcoming w.runtime 0 := by
      rw [build_spec hb]
      rintro (hne | ⟨route, hr, -⟩ | ⟨e, he, -⟩)
      · cases hne
      · cases hr
      · cases he
    have hn : ∀ s (state : RangeSession), w.runtime.range.sessions.lookup s ≠ some state := by
      intro s state
      rw [hstr.2, AList.lookup_empty]
      exact nofun
    rw [hea, hl]
    refine ⟨fun _ => List.forall_mem_nil _, fun s hs => ⟨id, ?_, rfl, rfl, fun heq => hz (heq ▸ hs)⟩,
      fun s state _ hst => absurd hst (hn s state),
      fun s state _ hst => absurd hst (hn s state)⟩
    rw [hstr.1]
    rfl
  | next h _ ih => exact arranged_step ih (heralded_reach (reach_runtime h)) _

end Steps

end Rnet.Game.EarlyData
