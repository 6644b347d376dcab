import Rnet.Game.Tickets

/-! # Announcements come once and in front of data

A session is announced to the game layer as a request for authorization when its handle is new and
as opened when its route becomes established, and its data follows. So a session that is still to be
opened has no negotiation yet, or one that waits for being opened and has kept back nothing; and a
session whose data was converted is not announced again. `Advances` says what the network does to
the pipeline of unconverted events, once for all its steps. -/

namespace Rnet.Game.Announcements

open Rnet.Core Lib.BigEndian Lib.FiniteMap
open Transport.State (SessionRoute)
open Transport.Session (sessionEvent)
open Envelope (ControlKind)
open Join (joinBytes)
open Event RangeState Network Game.Runtime Game.Runtime.GameRuntime Cleanup Workers
open Conversion Steps Tickets

/-- Of two events of one session the announcements are in order, and none is behind data. -/
structure Heralds (a b : Core.Event) : Prop where
  precedes : Precedes a b
  data : a.session = b.session → a.eventType = .message → rank b.eventType = none

theorem heralds_of_none (h : rank b.eventType = none) : Heralds a b := by
  refine ⟨fun _ _ _ j hj => ?_, fun _ _ => h⟩
  rw [h] at hj
  cases hj

/-- The session is still to be opened: its handle is new, its route is not established, or an
announcement of it was not converted. -/
def Upcoming (g : GameRuntime) (s : Handle) : Prop :=
  g.network.shared.nextSession ≤ s ∨
    (∃ route, g.network.shared.sessions.lookup s = some route ∧ route.established = false) ∨
    ∃ e ∈ pipeline g, e.session = s ∧ (rank e.eventType).isSome

/-- Nothing was asked of the game layer about the session. -/
def Unasked (g : GameRuntime) (s : Handle) : Prop :=
  g.network.shared.nextSession ≤ s ∨
    ∃ e ∈ pipeline g, e.session = s ∧ e.eventType = .authRequest

variable {g : GameRuntime}

theorem Unasked.upcoming (h : Unasked g s) : Upcoming g s := by
  rcases h with hn | ⟨e, he, hs, ha⟩
  · exact .inl hn
  · exact .inr (.inr ⟨e, he, hs, by rw [ha]; rfl⟩)

/-- A negotiation that resumes on the server has a predecessor. -/
def Succeeds (state : RangeSession) : Prop := state.serverResume = true → state.oldSession.isSome

/-- **Announcements come once and in front of data.** -/
structure Heralded (g : GameRuntime) : Prop where
  ordered : (pipeline g).Pairwise Heralds
  routes : ∀ s route, g.network.shared.sessions.lookup s = some route →
    s < g.network.shared.nextSession
  issued : ∀ e ∈ pipeline g, (rank e.eventType).isSome ∨ e.eventType = .message →
    e.session < g.network.shared.nextSession
  unopened : ∀ s route, g.network.shared.sessions.lookup s = some route →
    route.established = false → ∀ e ∈ pipeline g, e.session = s →
      e.eventType ≠ .sessionOpened ∧ e.eventType ≠ .message
  unknown : ∀ s, Unasked g s → g.range.sessions.lookup s = none
  awaiting : ∀ s, Upcoming g s → ∀ state, g.range.sessions.lookup s = some state →
    state.phase = .serverAwaitOpen ∧ state.buffered = []
  resumes : ∀ s state, g.range.sessions.lookup s = some state → Succeeds state

/-! ### What the network does to the pipeline -/

/-- An event the network may add. -/
inductive Proper (g g' : GameRuntime) (e : Core.Event) : Prop
  | silent (hrank : rank e.eventType = none) (hdata : e.eventType ≠ .message)
  | asked (htype : e.eventType = .authRequest)
      (hnew : e.session = g.network.shared.nextSession)
      (hissued : e.session < g'.network.shared.nextSession)
  | opened (htype : e.eventType = .sessionOpened)
      (hbefore : ∃ route, g.network.shared.sessions.lookup e.session = some route ∧
        route.established = false)
      (hafter : ∀ route, g'.network.shared.sessions.lookup e.session = some route →
        route.established = true)
  | data (htype : e.eventType = .message)
      (hroute : ∃ route, g.network.shared.sessions.lookup e.session = some route ∧
        route.established = true)

/-- **The network moves on**: events of the pipeline may go and the events `new` come. -/
structure Advances (new : List Core.Event) (g g' : GameRuntime) : Prop where
  pipeline : ∃ kept, kept.Sublist (pipeline g) ∧ pipeline g' = kept ++ new
  nextSession_le : g.network.shared.nextSession ≤ g'.network.shared.nextSession
  routes : ∀ s route', g'.network.shared.sessions.lookup s = some route' →
    (∃ route, g.network.shared.sessions.lookup s = some route ∧ Continues route route') ∨
      (g.network.shared.nextSession ≤ s ∧ s < g'.network.shared.nextSession ∧
        route'.established = false)
  proper : ∀ e ∈ new, Proper g g' e
  ordered : new.Pairwise Heralds

namespace Advances

variable {new : List Core.Event} {g g' : GameRuntime}

/-- **What is still to come was still to come before.** -/
theorem upcoming (h : Advances new g g') (hs : Upcoming g' s) : Upcoming g s := by
  obtain ⟨kept, hk, hp⟩ := h.pipeline
  rcases hs with hn | ⟨route', hr', hes⟩ | ⟨e, he, hse, hr⟩
  · exact .inl (Nat.le_trans h.nextSession_le hn)
  · rcases h.routes s route' hr' with ⟨route, hro, hc⟩ | ⟨hn, -⟩
    · refine .inr (.inl ⟨route, hro, ?_⟩)
      by_contra hco
      rw [hc.established (by simpa using hco)] at hes
      cases hes
    · exact .inl hn
  · rw [hp] at he
    rcases List.mem_append.mp he with he | he
    · exact .inr (.inr ⟨e, hk.subset he, hse, hr⟩)
    cases h.proper e he with
    | silent hno =>
      rw [hno] at hr
      cases hr
    | asked _ hn => exact .inl (Nat.le_of_eq (hn.symm.trans hse))
    | opened _ hb => exact .inr (.inl (hse ▸ hb))
    | data ht =>
      rw [ht] at hr
      cases hr

theorem unasked (h : Advances new g g') (hs : Unasked g' s) : Unasked g s := by
  obtain ⟨kept, hk, hp⟩ := h.pipeline
  rcases hs with hn | ⟨e, he, hse, ha⟩
  · exact .inl (Nat.le_trans h.nextSession_le hn)
  rw [hp] at he
  rcases List.mem_append.mp he with he | he
  · exact .inr ⟨e, hk.subset he, hse, ha⟩
  cases h.proper e he with
  | silent hno =>
    rw [ha] at hno
    cases hno
  | asked _ hn => exact .inl (Nat.le_of_eq (hn.symm.trans hse))
  | opened ht | data ht =>
    rw [ha] at ht
    cases ht

theorem of_same (hs : g'.network.shared = g.network.shared)
    (hp : Steps.pipeline g' = Steps.pipeline g) : Advances [] g g' where
  pipeline := ⟨_, List.Sublist.refl _, by rw [hp, List.append_nil]⟩
  nextSession_le := Nat.le_of_eq (by rw [hs])
  routes := fun s route hr => .inl ⟨route, hs ▸ hr, .refl route⟩
  proper := List.forall_mem_nil _
  ordered := .nil

theorem of_net (h : Net new g.network n) (hp : ∀ e ∈ new, Proper g { g with network := n } e)
    (ho : new.Pairwise Heralds) : Advances new g { g with network := n } where
  pipeline := by
    refine ⟨_, List.Sublist.refl _, ?_⟩
    unfold Steps.pipeline
    rw [h.events, List.append_assoc]
  nextSession_le := h.nextSession_le
  routes := h.routes
  proper := hp
  ordered := ho

theorem of_netEnds (h : NetEnds g.network n) : ∃ new, Advances new g { g with network := n } := by
  obtain ⟨new, hn, hen⟩ := h
  have hs : ∀ e ∈ new, rank e.eventType = none ∧ e.eventType ≠ .message := by
    intro e he
    rcases hen e he with ht | ht | ht | ht <;> rw [ht] <;> decide
  refine ⟨new, of_net hn (fun e he => .silent (hs e he).1 (hs e he).2) ?_⟩
  exact List.pairwise_of_forall_mem_list fun _ _ b hb => heralds_of_none (hs b hb).1

theorem of_sheds (h : Sheds gone g g') : ∃ new, Advances new g g' := by
  obtain ⟨new, hev, hc, -⟩ := h.closes.events
  have hs : ∀ e ∈ new, rank e.eventType = none ∧ e.eventType ≠ .message := by
    intro e he
    rw [hc e he]
    decide
  refine ⟨new, ⟨_, List.Sublist.refl _, ?_⟩, Nat.le_of_eq h.closes.nextSession.symm, ?_,
    fun e he => .silent (hs e he).1 (hs e he).2, ?_⟩
  · unfold Steps.pipeline
    rw [h.poll, hev, List.append_assoc]
  · exact fun s route hr => .inl ⟨route, h.closes.routes s route hr, .refl route⟩
  · exact List.pairwise_of_forall_mem_list fun _ _ b hb => heralds_of_none (hs b hb).1

theorem of_sent {session : Handle} (h : Sent kind session payload g g' r) : Advances [] g g' := by
  refine of_same ?_ ?_
  · rw [h.core]
  · unfold Steps.pipeline
    rw [h.core]

theorem of_steps (h : Same g g') : Advances [] g g' := by
  refine ⟨⟨_, List.Sublist.refl _, by rw [h.pipeline, List.append_nil]⟩, ?_, ?_,
    List.forall_mem_nil _, .nil⟩
  · rw [h.core]
  · rw [h.core]
    exact fun s route hr => .inl ⟨route, hr, .refl route⟩

end Advances

/-! ### The invariant -/

/-- A negotiation that waits for being opened still does, without early data. -/
def Waits (state : RangeSession) : Prop := state.phase = .serverAwaitOpen ∧ state.buffered = []

namespace Heralded

variable {new : List Core.Event} {g g' : GameRuntime}

variable (h : Heralded g)
include h

theorem heralds (ha : a ∈ pipeline g) (hb : Proper g g' b) : Heralds a b := by
  cases hb with
  | silent hra => exact heralds_of_none hra
  | asked ht hn =>
    have hl : a.session = b.session → ¬((rank a.eventType).isSome ∨ a.eventType = .message) := by
      intro hs hk
      have his := h.issued a ha hk
      rw [hs, hn] at his
      exact Nat.lt_irrefl _ his
    refine ⟨fun hs i hi => absurd (.inl ?_) (hl hs), fun hs hd =>
      absurd (.inr hd) (hl hs)⟩
    rw [hi]
    rfl
  | opened ht hbe =>
    obtain ⟨route, hr, he⟩ := hbe
    refine ⟨fun hs i hi j hj => ?_, fun hs hd =>
      absurd hd (h.unopened _ _ hr he a ha hs).2⟩
    obtain ⟨ho, -⟩ := h.unopened _ _ hr he a ha hs
    rw [ht] at hj
    cases hj
    cases hk : a.eventType <;> rw [hk] at hi ho <;> cases hi
    · exact absurd rfl ho
    · exact Nat.zero_lt_one
  | data ht =>
    refine heralds_of_none ?_
    rw [ht]
    rfl

/-- **The network keeps the order of announcements.** -/
theorem advances (ha : Advances new g g')
    (hsta : ∀ s state', g'.range.sessions.lookup s = some state' →
      ∃ state, g.range.sessions.lookup s = some state ∧ (Waits state → Waits state') ∧
        (Succeeds state → Succeeds state')) : Heralded g' := by
  obtain ⟨kept, hk, hp⟩ := ha.pipeline
  have hbe : ∀ {s}, s < g.network.shared.nextSession → s < g'.network.shared.nextSession :=
    fun hs => Nat.lt_of_lt_of_le hs ha.nextSession_le
  refine ⟨?_, ?_, ?_, ?_, ?_, ?_, ?_⟩
  · rw [hp]
    exact List.pairwise_append.mpr ⟨h.ordered.sublist hk, ha.ordered,
      fun a hin b hb => h.heralds (hk.subset hin) (ha.proper b hb)⟩
  · intro s route' hr'
    rcases ha.routes s route' hr' with ⟨route, hr, -⟩ | ⟨-, hl, -⟩
    · exact hbe (h.routes s route hr)
    · exact hl
  · intro e he hki
    rw [hp] at he
    rcases List.mem_append.mp he with he | he
    · exact hbe (h.issued e (hk.subset he) hki)
    cases ha.proper e he with
    | silent hra hd =>
      rw [hra] at hki
      exact absurd (hki.resolve_left nofun) hd
    | asked _ _ hi => exact hi
    | opened _ hbef =>
      obtain ⟨route, hr, -⟩ := hbef
      exact hbe (h.routes _ route hr)
    | data _ hr =>
      obtain ⟨route, hr, -⟩ := hr
      exact hbe (h.routes _ route hr)
  · intro s route' hr' he' e he hse
    rw [hp] at he
    rcases ha.routes s route' hr' with ⟨route, hr, hc⟩ | ⟨hne, -, -⟩
    · -- The route was not established before either.
      have hest : route.established = false := by
        by_contra hco
        rw [hc.established (by simpa using hco)] at he'
        cases he'
      rcases List.mem_append.mp he with he | he
      · exact h.unopened s route hr hest e (hk.subset he) hse
      cases ha.proper e he with
      | silent hra hd =>
        refine ⟨fun ht => ?_, hd⟩
        rw [ht] at hra
        cases hra
      | asked ht => rw [ht]; decide
      | opened _ _ haf =>
        rw [haf route' (hse ▸ hr')] at he'
        cases he'
      | data _ hd =>
        obtain ⟨found, hfo, hes⟩ := hd
        rw [hse, hr] at hfo
        cases hfo
        rw [hest] at hes
        cases hes
    · have hf : ∀ {p}, s < g.network.shared.nextSession → p :=
        fun hl => absurd hl (Nat.not_lt.mpr hne)
      rcases List.mem_append.mp he with he | he
      · have hi := h.issued e (hk.subset he)
        rw [hse] at hi
        refine ⟨fun ht => hf (hi (.inl ?_)), fun ht => hf (hi (.inr ht))⟩
        rw [ht]
        rfl
      · cases ha.proper e he with
        | silent hra hd =>
          refine ⟨fun ht => ?_, hd⟩
          rw [ht] at hra
          cases hra
        | asked ht => rw [ht]; decide
        | opened _ hbef =>
          obtain ⟨route, hr, -⟩ := hbef
          exact hf (h.routes s route (hse ▸ hr))
        | data _ hr =>
          obtain ⟨route, hr, -⟩ := hr
          exact hf (h.routes s route (hse ▸ hr))
  · intro s hs
    have hn := h.unknown s (ha.unasked hs)
    by_contra hso
    obtain ⟨state', hs'⟩ := Option.ne_none_iff_exists'.mp hso
    obtain ⟨state, hst, -⟩ := hsta s state' hs'
    rw [hn] at hst
    cases hst
  · intro s hs state' hs'
    obtain ⟨state, hst, hwa, -⟩ := hsta s state' hs'
    exact hwa (h.awaiting s (ha.upcoming hs) state hst)
  · intro s state' hs'
    obtain ⟨state, hst, -, hre⟩ := hsta s state' hs'
    exact hre (h.resumes s state hst)

theorem advances_same (ha : Advances new g g') (hs : Sub g'.range.sessions g.range.sessions) :
    Heralded g' :=
  h.advances ha fun s state' hs' => ⟨state', hs s state' hs', id, id⟩

theorem sheds (hs : Sheds gone g g') : Heralded g' := by
  obtain ⟨new, ha⟩ := Advances.of_sheds hs
  exact h.advances_same ha hs.sessions.sub

theorem sent {kind : ControlKind} {session : Handle} {payload : Bytes} {r : Result Unit}
    (hs : Sent kind session payload g g' r) : Heralded g' := by
  refine h.advances_same (.of_sent hs) ?_
  rw [hs.range]
  exact .refl _

theorem of_same (hs : g'.network.shared = g.network.shared) (hp : g'.poll = g.poll)
    (hsu : Sub g'.range.sessions g.range.sessions) : Heralded g' := by
  refine h.advances_same (.of_same hs ?_) hsu
  unfold pipeline
  rw [hs, hp]

theorem setSession {session : Handle} (state : RangeSession) (hr : Succeeds state)
    (ha : ¬Unasked g session) (hwa : Upcoming g session → Waits state) :
    Heralded (g.setSession session state) := by
  refine ⟨h.ordered, h.routes, h.issued, h.unopened, fun s hs => ?_, fun s hs found hf => ?_,
    fun s found hf => ?_⟩
  · change (g.range.sessions.insert session state).lookup s = none
    rw [lookup_insert_ite, if_neg]
    · exact h.unknown s hs
    · rintro rfl
      exact ha hs
  · change (g.range.sessions.insert session state).lookup s = some found at hf
    rw [lookup_insert_ite] at hf
    split_ifs at hf with he
    · cases hf
      exact hwa (he ▸ hs)
    · exact h.awaiting s hs found hf
  · change (g.range.sessions.insert session state).lookup s = some found at hf
    rw [lookup_insert_ite] at hf
    split_ifs at hf
    · cases hf
      exact hr
    · exact h.resumes s found hf

end Heralded

/-! ### Steps of the network -/

section Network

variable {g : GameRuntime}

theorem advances_accept (h : Heralded g) (endpoint : Handle) (peer : Transport.Config.SocketAddr)
    (peerKey join : Bytes) (room : Bool) :
    ∃ new, Advances new g { g with network := g.network.accept endpoint peer peerKey join room } := by
  rcases net_accept g.network endpoint peer peerKey join room with he | ⟨-, hn, route, hr, -⟩
  · exact Advances.of_netEnds he
  refine ⟨_, .of_net hn (List.forall_mem_singleton.mpr (.asked rfl rfl ?_))
    (List.pairwise_singleton _ _)⟩
  rcases hn.routes _ _ hr with ⟨found, hf, -⟩ | ⟨-, hl, -⟩
  · exact absurd (h.routes _ _ hf) (Nat.lt_irrefl _)
  · exact hl

theorem advances_join (endpoint : Handle) (peer : Transport.Config.SocketAddr) :
    Advances [] g { g with network := g.network.join endpoint peer } :=
  .of_net (net_join _ _ _).1 (List.forall_mem_nil _) .nil

theorem advances_establish (session : Handle) (room : Bool) :
    ∃ new, Advances new g { g with network := g.network.establish session room } := by
  rcases net_establish g.network session room with he | ⟨route, hr, hes, -, ha, hn⟩
  · exact Advances.of_netEnds he
  · exact ⟨_, .of_net hn (List.forall_mem_singleton.mpr (.opened rfl ⟨route, hr, hes⟩ ha))
      (List.pairwise_singleton _ _)⟩

theorem advances_deliver (session : Handle) (delivery : NetworkRuntime.Delivery) (room : Bool) :
    ∃ new, Advances new g { g with network := g.network.deliver session delivery room } := by
  rcases net_deliver g.network session delivery room with he | ⟨route, hr, hes, hn⟩
  · exact Advances.of_netEnds he
  refine ⟨_, .of_net hn (List.forall_mem_singleton.mpr ?_) (List.pairwise_singleton _ _)⟩
  cases delivery with
  | message => exact .data rfl ⟨route, hr, hes⟩
  | gameControl | writable | securityChanged => exact .silent rfl nofun

theorem advances_announceEndpoint (event : EventType) (endpoint : Handle) :
    ∃ new, Advances new g { g with network := announceEndpoint g.network event endpoint } := by
  obtain ⟨new, hn, hk⟩ := net_announceEndpoint g.network event endpoint
  have hs : ∀ e ∈ new, rank e.eventType = none ∧ e.eventType ≠ .message := by
    intro e he
    rcases hk e he with ht | ht <;> rw [ht] <;> decide
  refine ⟨new, .of_net hn (fun e he => .silent (hs e he).1 (hs e he).2) ?_⟩
  exact List.pairwise_of_forall_mem_list fun _ _ b hb => heralds_of_none (hs b hb).1

theorem advances_lose (index : ℕ) :
    Advances [] g { g with network := g.network.lose index } := by
  rcases lose_cases g.network index with hs | ⟨event, -, -, hl⟩
  · rw [hs]
    exact .of_same rfl rfl
  rw [hl]
  refine ⟨⟨_, ?_, (List.append_nil _).symm⟩, Nat.le_refl _, ?_, List.forall_mem_nil _, .nil⟩
  · exact (List.Sublist.refl _).append (List.eraseIdx_sublist _ _)
  · exact fun s route hr => .inl ⟨route, hr, .refl route⟩

end Network

/-! ### Conversions -/

structure Popped (event : Core.Event) (g : GameRuntime) : Prop where
  heralded : Heralded g
  issued : (rank event.eventType).isSome ∨ event.eventType = .message →
    event.session < g.network.shared.nextSession
  asked : event.eventType = .authRequest → ¬Unasked g event.session
  opened : event.eventType = .sessionOpened → Live g.network event.session →
    ¬Upcoming g event.session
  data : event.eventType = .message → ¬Upcoming g event.session

variable {p : Poll} {event : Core.Event} {rest : List Core.Event}

theorem pipeline_popped (hp : g.poll = some p) (hb : p.batch = event :: rest) :
    pipeline g = event :: pipeline (popped g p rest) := by
  unfold pipeline
  rw [hp]
  change p.batch ++ _ = _
  rw [hb]
  rfl

theorem advances_popped (hp : g.poll = some p) (hb : p.batch = event :: rest) :
    Advances [] g (popped g p rest) := by
  refine ⟨⟨_, ?_, (List.append_nil _).symm⟩, Nat.le_refl _, fun s route hr =>
    .inl ⟨route, hr, .refl route⟩, List.forall_mem_nil _, .nil⟩
  rw [pipeline_popped hp hb]
  exact (List.Sublist.refl _).cons _

theorem Heralded.popped (h : Heralded g) (hp : g.poll = some p) (hb : p.batch = event :: rest) :
    Popped event (popped g p rest) := by
  have hpi := pipeline_popped hp hb
  have ho := h.ordered
  rw [hpi] at ho
  obtain ⟨hf, -⟩ := List.pairwise_cons.mp ho
  have hh : event ∈ pipeline g := by
    rw [hpi]
    exact List.mem_cons_self
  have his := h.issued event hh
  refine ⟨h.advances_same (advances_popped hp hb) (.refl _), his, fun ht => ?_, fun ht hli => ?_,
    fun ht => ?_⟩
  · have hlt := his (.inl (by rw [ht]; rfl))
    rintro (hn | ⟨e, he, hs, ha⟩)
    · exact absurd hlt (Nat.not_lt.mpr hn)
    · have hl := (hf e he).precedes hs.symm 0 (by rw [ht]; rfl) 0 (by rw [ha]; rfl)
      exact Nat.lt_irrefl _ hl
  · have hlt := his (.inl (by rw [ht]; rfl))
    rintro (hn | ⟨route, hro, hest⟩ | ⟨e, he, hs, hr⟩)
    · exact absurd hlt (Nat.not_lt.mpr hn)
    · obtain ⟨-, found, hfo, hes⟩ := hli
      cases hro.symm.trans hfo
      rw [hest] at hes
      cases hes
    · obtain ⟨i, hi⟩ := Option.isSome_iff_exists.mp hr
      have hl := (hf e he).precedes hs.symm 1 (by rw [ht]; rfl) i hi
      cases hk : e.eventType <;> rw [hk] at hi <;> cases hi
      · exact absurd hl (by decide)
      · exact absurd hl (by decide)
  · have hlt := his (.inr ht)
    rintro (hn | ⟨route, hro, hest⟩ | ⟨e, he, hs, hr⟩)
    · exact absurd hlt (Nat.not_lt.mpr hn)
    · exact (h.unopened _ route hro hest event hh rfl).2 ht
    · rw [(hf e he).data hs.symm ht] at hr
      cases hr

variable {session : Handle}

theorem Heralded.not_upcoming (h : Heralded g)
    (hst : g.range.sessions.lookup session = some state) (hp : state.phase ≠ .serverAwaitOpen) :
    ¬Upcoming g session :=
  fun hs => hp (h.awaiting session hs state hst).1

theorem Heralded.publishes {endpoint : Handle} (h : Heralded g)
    (hp : Publishes g endpoint session old serverResume g' r) : Heralded g' := by
  cases hp with
  | lost hs => exact h.sheds hs
  | broken => exact h
  | announced _ _ hs =>
    have hr : Heralded { g with admission := g.admission.insert session () } :=
      h.of_same rfl rfl (.refl _)
    exact (hr.sheds hs).of_same rfl rfl (.refl _)

theorem Heralded.completed (h : Heralded g) (hst : g.range.sessions.lookup session = some state)
    (ho : ¬Upcoming g session) (phase : Phase) :
    Heralded (completedState g session state phase) := by
  have hr : Succeeds { state with phase := phase, bufferedBytes := 0, buffered := [] } :=
    h.resumes session state hst
  have hse := h.setSession _ hr (fun hs => ho hs.upcoming) fun hs => absurd hs ho
  refine hse.of_same rfl rfl fun s found hf => ?_
  rw [lookup_completedState] at hf
  change (g.range.sessions.insert session _).lookup s = some found
  rw [lookup_insert_ite]
  exact hf

theorem succeeds_takeClaim (r : ResumeRuntimeState) (endpoint session : Handle) :
    (takeClaim r endpoint session).2.2 = true → (takeClaim r endpoint session).2.1.isSome := by
  unfold takeClaim
  split
  · exact fun _ => rfl
  · exact nofun

theorem Popped.converts (h : Popped event g) (hc : Converts env g event g' r) : Heralded g' := by
  have hop : event.eventType = .sessionOpened → Live g.network event.session →
      ∀ transport state, Succeeds state →
        Heralded ((withTrackers g event transport).setSession event.session state) := by
    intro ht hl transport state hr
    have ho := h.opened ht hl
    have hset := h.heralded.setSession state hr (fun hs => ho hs.upcoming)
      fun hs => absurd hs ho
    exact hset.of_same rfl rfl (.refl _)
  cases hc with
  | shed hsh => exact h.heralded.sheds hsh
  | rejected =>
    have hd := h.heralded.advances_same (.of_net (net_authDecide g.network event.session false
      env.decisionExpired) (List.forall_mem_nil _) .nil) (.refl _)
    exact hd.of_same rfl rfl (.refl _)
  | @registered join _ _ version _ _ ht =>
    have hset := h.heralded.setSession (candidate env event join version) nofun (h.asked ht)
      fun _ => ⟨rfl, rfl⟩
    exact hset.of_same rfl rfl (.refl _)
  | unexpected => exact h.heralded.of_same rfl rfl (.refl _)
  | @opened transport state _ _ ht _ hl _ _ hse =>
    have hr : Succeeds (openedState env state (takeClaim g.resume event.endpoint
        event.session).2.1 (takeClaim g.resume event.endpoint event.session).2.2) :=
      succeeds_takeClaim _ _ _
    exact (hop ht hl transport _ hr).sent hse
  | @joined transport pending ht _ hl =>
    have hr : Succeeds (joinedState env event.endpoint pending
        (takeClaim g.resume event.endpoint event.session).2.1) := nofun
    exact (hop ht hl transport _ hr).of_same rfl rfl (.refl _)
  | answered _ _ hse => exact h.heralded.sent hse
  | @selected state control _ _ ha hco hse =>
    have ho := h.heralded.not_upcoming ha.found (by
      rcases hco.phase with hp | hp <;> rw [hp] <;> decide)
    have hr : Succeeds (selectedState env state control) :=
      h.heralded.resumes event.session state ha.found
    exact (h.heralded.setSession _ hr (fun hs => ho hs.upcoming) fun hs =>
      absurd hs ho).sent hse
  | confirmed _ _ hse => exact h.heralded.sent hse
  | serverCompleted ha hp _ _ _ hse hpu =>
    have hf := ha.found
    rw [← hse.range] at hf
    have ho := (h.heralded.sent hse).not_upcoming hf (by rw [hp]; decide)
    exact ((h.heralded.sent hse).completed hf ho _).publishes hpu
  | clientCompleted ha hp _ _ _ hpu =>
    have ho := h.heralded.not_upcoming ha.found (by rw [hp]; decide)
    exact (h.heralded.completed ha.found ho _).publishes hpu
  | @buffered message state _ _ ht _ hst =>
    have ho := h.data ht
    have hr : Succeeds { state with
        bufferedBytes := state.bufferedBytes + message.payload.length
        buffered := state.buffered ++ [message] } :=
      h.heralded.resumes event.session state hst
    have hset := h.heralded.setSession _ hr (fun hs => ho hs.upcoming)
      fun hs => absurd hs ho
    exact hset.of_same rfl rfl (.refl _)
  | passed => exact h.heralded

/-! ### Whole runs -/

theorem heralded_keeps : TableKeeps anything Heralded where
  shed h hs := h.sheds hs
  sent h _ hs := h.sent hs
  rescheduled now h := by
    refine h.advances (.of_same rfl rfl) fun s found hfo => ?_
    have hm := (lookup_mapValues _ _ s).symm.trans hfo
    obtain ⟨state, hst, rfl⟩ := Option.map_eq_some_iff.mp hm
    unfold RangeRuntimeState.RangeSession.rescheduled
    split <;> exact ⟨state, hst, id, id⟩
  repeated h _ _ hs := h.sent hs
  listened h _ _ := h.of_same rfl rfl (.refl _)
  connected h _ _ := h.of_same rfl rfl (.refl _)
  decided h _ := h.advances_same (.of_net (net_authDecide _ _ _ _) (List.forall_mem_nil _) .nil)
    (.refl _)
  issued {g env draws session identity g' r} h _ hi := by
    have hr : ∀ resume, Heralded { g with resume := resume } :=
      fun _ => h.of_same rfl rfl (.refl _)
    cases hi with
    | refused => exact hr _
    | sent _ _ _ _ _ hse => exact (hr _).sent hse
    | undone => exact hr _
  scheduled h _ _ := h.of_same rfl rfl (.refl _)
  latest h _ _ := h.of_same rfl rfl (.refl _)
  flushed h hf := by
    refine h.of_same ?_ ?_ ?_ <;> rw [hf.core]
    exact .refl _
  ended h hn := by
    obtain ⟨new, ha⟩ := Advances.of_netEnds hn
    exact h.advances_same ha (.refl _)
  stopped {g} h := by
    obtain ⟨new, ha⟩ := Advances.of_netEnds (g := g) (netEnds_stop g.network)
    exact (h.advances_same ha (.refl _)).of_same rfl rfl (.empty _)
  accepted h _ := by
    obtain ⟨new, ha⟩ := advances_accept h _ _ _ _ _
    exact h.advances_same ha (.refl _)
  joined h _ := h.advances_same (advances_join _ _) (.refl _)
  established h _ := by
    obtain ⟨new, ha⟩ := advances_establish _ _
    exact h.advances_same ha (.refl _)
  delivered h _ := by
    obtain ⟨new, ha⟩ := advances_deliver _ _ _
    exact h.advances_same ha (.refl _)
  announced h := by
    obtain ⟨new, ha⟩ := advances_announceEndpoint _ _
    exact h.advances_same ha (.refl _)
  lost h _ := h.advances_same (advances_lose _) (.refl _)
  same h hs := by
    refine h.advances_same (.of_steps hs) ?_
    rw [hs.tables.sessions]
    exact .refl _
  converted h hp hb _ hc := (h.popped hp hb).converts hc

/-- **In every run announcements come once and in front of data.** -/
theorem heralded_reach (h : machine.Reach anything g) : Heralded g := by
  refine h.invariant ?_ fun g input hg hgu => heralded_keeps.keeps.step hg hgu
  rintro g ⟨config, clockRoom, ttl, maxResumeTickets, sign, hb⟩
  rw [build_spec hb]
  have hr : ∀ s route, (∅ : Table Handle SessionRoute).lookup s ≠ some route := nofun
  have hs : ∀ s state, (∅ : Table Handle RangeSession).lookup s ≠ some state := nofun
  exact ⟨.nil, fun s route h => absurd h (hr s route), List.forall_mem_nil _,
    fun s route h => absurd h (hr s route), fun _ _ => rfl,
    fun s _ state h => absurd h (hs s state), fun s state h => absurd h (hs s state)⟩

def announces (e : Core.Event) : Bool := e.eventType = .authRequest || e.eventType = .sessionOpened

/-- **A session is announced in order.** In every run, among the events that wait to be converted, a
session is announced once as a candidate, then once as opened, and its data comes after that. While an
announcement waits, the session has no negotiation, or one that waits for being opened and has kept
back nothing. -/
theorem announced_in_order (h : machine.Reach anything g) :
    (pipeline g).Pairwise (fun a b => a.session = b.session → announces b = true →
      a.eventType ≠ b.eventType ∧ a.eventType ≠ .sessionOpened ∧ a.eventType ≠ .message) ∧
    ∀ e ∈ pipeline g, announces e = true → ∀ state, g.range.sessions.lookup e.session = some state →
      state.phase = .serverAwaitOpen ∧ state.buffered = [] := by
  have hg := heralded_reach h
  have hrank : ∀ {e}, announces e = true → ∃ i ≤ 1, rank e.eventType = some i := by
    intro e he
    rcases Bool.or_eq_true_iff.mp he with he | he <;> rw [of_decide_eq_true he]
    · exact ⟨0, Nat.zero_le 1, rfl⟩
    · exact ⟨1, le_rfl, rfl⟩
  refine ⟨hg.ordered.imp fun {a b} hab hs hb => ?_, fun e he ha => ?_⟩
  · obtain ⟨j, hj, hr⟩ := hrank hb
    refine ⟨fun he => ?_, fun he => ?_, fun he => ?_⟩
    · exact absurd (hab.precedes hs j (he ▸ hr) j hr) (lt_irrefl j)
    · exact absurd (hab.precedes hs 1 (by rw [he]; rfl) j hr) (Nat.not_lt.mpr hj)
    · rw [hab.data hs he] at hr
      cases hr
  · obtain ⟨i, -, hr⟩ := hrank ha
    exact hg.awaiting e.session (.inr (.inr ⟨e, he, rfl, by rw [hr]; rfl⟩))

/-- A candidate was accepted and opened and has sent data, and another one asks for authorization. -/
def opening : List Input :=
  .listen .tcp sampleProtocol (.ok ()) :: .accept 1 ⟨.v4 1, 9⟩ samplePeerKey
    (joinBytes ⟨sampleProtocol, sampleNonce 1, [], none⟩) true :: polling ++
    [.authDecide 1 true false, .establish 1 true, receiving 1 42, .accept 1 ⟨.v4 2, 9⟩ samplePeerKey
      (joinBytes ⟨sampleProtocol, sampleNonce 2, [], none⟩) true]

theorem announced_in_order_accepted : ∃ g state, machine.Reach anything g ∧
    (pipeline g).map (fun e => (e.session, e.eventType)) =
      [(1, .sessionOpened), (1, .message), (2, .authRequest)] ∧
    g.range.sessions.lookup 1 = some state ∧ state.phase = .serverAwaitOpen ∧ state.buffered = [] := by
  have hp : (pipeline (machine.run newServer opening)).map (fun e => (e.session, e.eventType)) =
      [(1, .sessionOpened), (1, .message), (2, .authRequest)] := by decide +kernel
  have hs : ((machine.run newServer opening).range.sessions.lookup 1).isSome = true := by
    decide +kernel
  obtain ⟨state, hs⟩ := Option.isSome_iff_exists.mp hs
  have hm := List.mem_cons_self (a := ((1 : Handle), EventType.sessionOpened))
    (l := [(1, .message), (2, .authRequest)])
  rw [← hp] at hm
  obtain ⟨e, he, hse⟩ := List.mem_map.mp hm
  obtain ⟨hs1, ht⟩ := Prod.mk.inj hse
  have ha : announces e = true := by
    rw [announces, ht]
    rfl
  exact ⟨_, state, reach_sample opening, hp, hs,
    (announced_in_order (reach_sample opening)).2 e he ha state (hs1.symm ▸ hs)⟩

end Rnet.Game.Announcements
