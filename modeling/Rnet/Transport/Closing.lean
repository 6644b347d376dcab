import Rnet.Transport.Registry

/-! # Closing an endpoint while its worker runs

`close_endpoint` removes the endpoint, aborts its task and then scans the session table once. The
TCP listener inserts its routes under the endpoint lock and only while the endpoint is there, so the
scan misses none of them. A datagram worker inserts its route without looking at the endpoint: when
the scan finds it between two await points, it may still register a session that nobody closes.

The argument is one statement about each site: a session of the endpoint has a scan ahead of it or
is on the list of the scan that took place. -/

namespace Rnet.Transport.Closing

open Rnet.Core Lib.FiniteMap Lib.GuardedRun Registry

/-! ### Sites -/

def early : OpenStage → Bool
  | .reserve | .insertSession | .publish _ | .discardSession _ _ | .discardEndpoint _ => true
  | .register | .start | .returned _ => false

def unsessioned : OpenStage → Bool
  | .reserve | .insertSession => true
  | _ => false

theorem early_of_unsessioned (h : unsessioned stage = true) : early stage = true := by
  cases stage <;> first | rfl | cases h

/-- The session the call has inserted and not discarded. -/
def sessionOf : OpenStage → Option Handle
  | .publish session => session
  | .discardSession session _ => some session
  | _ => none

def live (task : Task) : Bool := task.stage != .unspawned && task.stage != .ended

/-- A datagram listener's task that is between two await points. -/
def between (site : Site) : Bool :=
  site.task.stage == .reserved || (site.kind == .datagramListener && site.task.stage == .running)

def beforeScan : CloseStage → Bool
  | .abort _ | .scan => true
  | .sessions _ => false

/-- The scan of the endpoint's sessions is still to come, if it is ever closed. -/
def scanAhead (site : Site) : Bool := site.record.isSome || site.closing.any beforeScan

/-- A reservation of the endpoint that has no route yet. -/
def reserving (site : Site) : Bool :=
  site.opening == .insertSession || site.task.stage == .reserved

def Owns (sessions : Table Handle Route) (e h : Handle) : Prop :=
  ∃ r, sessions.lookup h = some r ∧ r.endpoint = e

/-- What every schedule keeps true of one endpoint. -/
structure Sound (sessions : Table Handle Route) (e : Handle) (site : Site) : Prop where
  unspawned : early site.opening = true → site.task.stage = .unspawned
  inserted : early site.opening = true → ∀ h, Owns sessions e h → sessionOf site.opening = some h
  recorded : unsessioned site.opening = true → site.record.isSome
  parked : site.opening = .register ∨ site.opening = .start →
    site.task.stage = .waiting ∨ site.task.stage = .ended
  closing : site.closing.isSome → site.record = none
  closed : site.closed = true → site.record = none ∧ site.closing = none
  reachable : live site.task = true → site.task.aborted = false → site.opening ≠ .register →
    site.record = some true ∨ site.closing = some (.abort true)
  busy : between site = true → scanAhead site = true
  routes : ∀ h, Owns sessions e h →
    scanAhead site = true ∨ ∃ handles, site.closing = some (.sessions handles) ∧ h ∈ handles

variable {sessions : Table Handle Route} {e : Handle} {site : Site}

theorem Sound.mono (h : Sound sessions e site) (hs : ∀ x, Owns sessions' e x → Owns sessions e x) :
    Sound sessions' e site :=
  ⟨h.unspawned, fun he x hx => h.inserted he x (hs x hx), h.recorded, h.parked, h.closing,
    h.closed, h.reachable, h.busy, fun x hx => h.routes x (hs x hx)⟩

theorem Sound.open_of_closing (h : Sound sessions e site) (hr : site.record.isSome) :
    site.closing = none := by
  rcases hc : site.closing with - | stage
  · rfl
  have hn := h.closing (by rw [hc]; rfl)
  rw [hn] at hr
  cases hr

theorem stage_of_between (h : between site = true) :
    site.task.stage = .reserved ∨ site.task.stage = .running := by
  rw [between, Bool.or_eq_true, Bool.and_eq_true, beq_iff_eq, beq_iff_eq, beq_iff_eq] at h
  exact h.imp_right And.right

theorem not_between {p : Prop} (hr : site.task.stage ≠ .reserved)
    (hru : site.task.stage ≠ .running) (h : between site = true) : p := by
  rcases stage_of_between h with hs | hs
  · exact (hr hs).elim
  · exact (hru hs).elim

/-! ### Tables -/

/-- Reservations of the endpoints that satisfy `p`: their pending routes, and those on the way. -/
def reservations (t : Tables) (p : Handle → Bool) : ℕ :=
  countP t.sessions (fun _ r => p r.endpoint && !r.established) +
    countP t.sites fun e site => p e && reserving site

/-- Every site is sound, handles are new and the reservation counter is exact. -/
structure Coherent (t : Tables) : Prop where
  sound : ∀ e site, t.sites.lookup e = some site → Sound t.sessions e site
  fresh : ∀ e site, t.sites.lookup e = some site → e < t.nextEndpoint
  known : ∀ h r, t.sessions.lookup h = some r →
    h < t.nextSession ∧ (t.sites.lookup r.endpoint).isSome
  balanced : t.pendingHandshakes = reservations t fun _ => true

variable {t : Tables}

theorem Coherent.lookup_next (h : Coherent t) : t.sites.lookup t.nextEndpoint = none := by
  rcases hl : t.sites.lookup t.nextEndpoint with - | site
  · rfl
  · exact absurd (h.fresh _ _ hl) (Nat.lt_irrefl _)

def pendingRoutes (sessions : Table Handle Route) : ℕ := countP sessions fun _ r => !r.established

def held (site : Site) : ℕ := if reserving site then 1 else 0

variable {t' : Tables} {site' : Site}

section

variable (h : Coherent t) (hsi : t.sites.lookup e = some site)
include h hsi

/-- An access for the endpoint `e` keeps the tables coherent if its own site is sound again, nobody
else gets a session and the counter follows. -/
theorem Coherent.update (hs : t'.sites = t.sites.insert e site')
    (hn : t'.nextEndpoint = t.nextEndpoint)
    (hot : ∀ e' x, e' ≠ e → Owns t'.sessions e' x → Owns t.sessions e' x)
    (hk : ∀ x r, t'.sessions.lookup x = some r →
      x < t'.nextSession ∧ (t.sites.lookup r.endpoint).isSome)
    (hc : t'.pendingHandshakes + held site + pendingRoutes t.sessions =
      t.pendingHandshakes + held site' + pendingRoutes t'.sessions)
    (hso : Sound t'.sessions e site') : Coherent t' := by
  refine ⟨?_, ?_, ?_, ?_⟩
  · intro e' other ho
    rw [hs, lookup_insert_ite] at ho
    split_ifs at ho with he
    · cases ho
      rw [he]
      exact hso
    · exact (h.sound e' other ho).mono fun x => hot e' x he
  · intro e' other ho
    rw [hs, lookup_insert_ite] at ho
    rw [hn]
    split_ifs at ho with he
    · rw [he]
      exact h.fresh e site hsi
    · exact h.fresh e' other ho
  · intro x r hx
    refine ⟨(hk x r hx).1, ?_⟩
    rw [hs, lookup_insert_ite]
    split_ifs
    · rfl
    · exact (hk x r hx).2
  · have hb := h.balanced
    have hi := countP_insert t.sites (fun _ site => reserving site) e site'
    rw [hsi, Option.any_some] at hi
    simp only [reservations, Bool.true_and, hs] at hb ⊢
    simp only [held, pendingRoutes] at hc
    omega

theorem Coherent.set (hc : n + held site = t.pendingHandshakes + held site')
    (hs : Sound t.sessions e site') : Coherent ({ t with pendingHandshakes := n }.set e site') := by
  refine h.update hsi rfl rfl (fun _ _ _ hx => hx) h.known ?_ hs
  change n + held site + pendingRoutes t.sessions =
    t.pendingHandshakes + held site' + pendingRoutes t.sessions
  omega

theorem Coherent.set_same (hh : reserving site' = reserving site) (hs : Sound t.sessions e site') :
    Coherent (t.set e site') :=
  h.set hsi (n := t.pendingHandshakes) (by rw [held, held, hh]) hs

end

theorem owns_insertRoute (h : Owns (t.insertRoute e).sessions e' x) :
    Owns t.sessions e' x ∨ (x = t.nextSession ∧ e' = e) := by
  obtain ⟨r, hr, he⟩ := h
  rw [Tables.insertRoute, lookup_insert_ite] at hr
  split_ifs at hr with hx
  · cases hr
    exact .inr ⟨hx, he.symm⟩
  · exact .inl ⟨r, hr, he⟩

theorem Coherent.insertRoute (h : Coherent t) (hs : t.sites.lookup e = some site)
    (hc : n + held site = t.pendingHandshakes + 1 + held site')
    (hso : Sound (t.insertRoute e).sessions e site') :
    Coherent (({ t with pendingHandshakes := n }.insertRoute e).set e site') := by
  have hf : t.sessions.lookup t.nextSession = none := by
    rcases hl : t.sessions.lookup t.nextSession with - | r
    · rfl
    · exact absurd (h.known _ _ hl).1 (Nat.lt_irrefl _)
  refine h.update hs rfl rfl ?_ ?_ ?_ hso
  · intro e' x hn hx
    rcases owns_insertRoute (t := t) hx with ho | ⟨-, he⟩
    · exact ho
    · exact absurd he hn
  · intro x r hx
    change (t.sessions.insert t.nextSession ⟨e, false⟩).lookup x = some r at hx
    rw [lookup_insert_ite] at hx
    split_ifs at hx with he
    · cases hx
      exact ⟨by rw [he]; exact Nat.lt_succ_self _, by rw [hs]; rfl⟩
    · exact ⟨Nat.lt_succ_of_lt (h.known x r hx).1, (h.known x r hx).2⟩
  · have hi := countP_insert t.sessions (fun _ r => !r.established) t.nextSession ⟨e, false⟩
    rw [hf] at hi
    have hon : pendingRoutes (t.sessions.insert t.nextSession ⟨e, false⟩) =
        pendingRoutes t.sessions + 1 := hi
    change n + held site + pendingRoutes t.sessions = t.pendingHandshakes + held site' +
      pendingRoutes (t.sessions.insert t.nextSession ⟨e, false⟩)
    omega

theorem owns_removeSessions (h : Owns (t.removeSessions gone).sessions e x) :
    ∃ r, t.sessions.lookup x = some r ∧ r.endpoint = e ∧ gone x r = false := by
  obtain ⟨r, hr, he⟩ := h
  rw [Tables.removeSessions, lookup_filter, Option.filter_eq_some_iff] at hr
  exact ⟨r, hr.1, he, by simpa using hr.2⟩

theorem pendingRoutes_removeSessions (h : Coherent t) (gone : Handle → Route → Bool) :
    (t.removeSessions gone).pendingHandshakes + pendingRoutes t.sessions =
      t.pendingHandshakes + pendingRoutes (t.removeSessions gone).sessions := by
  have hs := countP_split t.sessions (fun _ r => !r.established) gone
  have hb := h.balanced
  have hc : (fun x r => gone x r && !r.established) =
      fun x r => !r.established && gone x r := by
    funext x r
    exact Bool.and_comm _ _
  simp only [reservations, Bool.true_and] at hb
  simp only [Tables.removeSessions, pendingRoutes, countP_filter, hc]
  omega

theorem Coherent.removeSessions (h : Coherent t) (gone : Handle → Route → Bool)
    (hsi : t.sites.lookup e = some site) (hh : reserving site' = reserving site)
    (hs : Sound (t.removeSessions gone).sessions e site') :
    Coherent ((t.removeSessions gone).set e site') := by
  refine h.update hsi rfl rfl ?_ ?_ ?_ hs
  · intro e' x _ hx
    obtain ⟨r, hr, he, -⟩ := owns_removeSessions hx
    exact ⟨r, hr, he⟩
  · intro x r hx
    obtain ⟨r', hr', he, -⟩ := owns_removeSessions (e := r.endpoint) ⟨r, hx, rfl⟩
    exact ⟨(h.known x r' hr').1, he ▸ (h.known x r' hr').2⟩
  · have hp := pendingRoutes_removeSessions h gone
    change (t.removeSessions gone).pendingHandshakes + held site + pendingRoutes t.sessions =
      t.pendingHandshakes + held site' + pendingRoutes (t.removeSessions gone).sessions
    rw [held, held, hh]
    omega

/-! ### Steps of one endpoint -/

theorem scanAhead_of_record (site : Site) (h : site.record.isSome) : scanAhead site = true := by
  rw [scanAhead, h, Bool.true_or]

/-- The call that opened the endpoint has inserted its session, or inserts none. -/
def sessioned (site : Site) : Bool := !unsessioned site.opening

/-- What a schedule must respect when an endpoint is closed: it is removed after the call that
opened it inserted its session, and its sessions are scanned while no datagram listener's task is
between two await points. -/
def calm (t : Tables) (e : Handle) : Tables.Action → Bool
  | .closeEndpoint => (t.sites.lookup e).all sessioned
  | .closing => (t.sites.lookup e).all fun site => !(site.closing == some .scan && between site)
  | _ => true

section

variable (h : Coherent t) (hsi : t.sites.lookup e = some site)
include h hsi

theorem coherent_removeEndpoint (hc : sessioned site = true) :
    Coherent (t.removeEndpoint e site) := by
  have hs := h.sound e site hsi
  unfold Tables.removeEndpoint
  rcases hr : site.record with - | registered
  · exact h
  have hah : scanAhead { site with record := none, closing := some (.abort registered) } = true :=
    rfl
  refine h.set_same hsi rfl
    ⟨hs.unspawned, hs.inserted, ?_, hs.parked, fun _ => rfl, ?_, ?_, fun _ => hah,
      fun _ _ => .inl hah⟩
  · intro hu
    rw [sessioned, hu] at hc
    cases hc
  · intro hcl
    rw [(hs.closed hcl).1] at hr
    cases hr
  · intro hl hab ho
    rcases hs.reachable hl hab ho with ht | ha
    · rw [hr] at ht
      cases ht
      exact .inr rfl
    · have hn := hs.open_of_closing (by rw [hr]; rfl)
      rw [hn] at ha
      cases ha

theorem coherent_advanceClosing (hca : (site.closing == some .scan && between site) = false) :
    Coherent (t.advanceClosing e site) := by
  have hs := h.sound e site hsi
  unfold Tables.advanceClosing
  rcases hc : site.closing with - | stage
  · exact h
  have hre := hs.closing (by rw [hc]; rfl)
  have hop : site.closed = false := by
    rcases hcl : site.closed with - | -
    · rfl
    · rw [(hs.closed hcl).2] at hc
      cases hc
  have hn : unsessioned site.opening = true → False := by
    intro hu
    have := hs.recorded hu
    rw [hre] at this
    cases this
  cases stage with
  | abort registered =>
    have hah : scanAhead { site with
        task := { site.task with aborted := site.task.aborted || registered }
        closing := some .scan } = true := by simp [scanAhead, beforeScan]
    refine h.set_same hsi rfl
      ⟨hs.unspawned, hs.inserted, fun hu => (hn hu).elim, hs.parked, fun _ => hre, ?_,
        ?_, fun _ => hah, fun _ _ => .inl hah⟩
    · intro hcl
      rw [hop] at hcl
      cases hcl
    · intro hl hab ho
      obtain ⟨hol, hreg⟩ := Bool.or_eq_false_iff.mp hab
      rcases hs.reachable hl hol ho with ht | ha
      · exact .inl ht
      · rw [hc, hreg] at ha
        cases ha
  | scan =>
    rw [hc, beq_self_eq_true, Bool.true_and] at hca
    refine h.set_same hsi rfl
      ⟨hs.unspawned, hs.inserted, fun hu => (hn hu).elim, hs.parked, fun _ => hre, ?_,
        ?_, ?_, ?_⟩
    · intro hcl
      rw [hop] at hcl
      cases hcl
    · intro hl hab ho
      rcases hs.reachable hl hab ho with ht | ha
      · exact .inl ht
      · rw [hc] at ha
        cases ha
    · intro hb
      exact absurd hb (by simp [show between { site with
        closing := some (.sessions (t.sessionsOf e)) } = between site from rfl, hca])
    · intro x hx
      refine .inr ⟨_, rfl, ?_⟩
      obtain ⟨r, hr, he⟩ := hx
      rw [Tables.sessionsOf, List.mem_map]
      exact ⟨⟨x, r⟩, List.mem_filter.mpr ⟨lookup_eq_some_iff.mp hr, by simpa using he⟩, rfl⟩
  | sessions handles =>
    have hno : scanAhead site = false := by simp [scanAhead, hre, hc, beforeScan]
    -- the list of the scan is all that was left of the endpoint's sessions
    have hg : ∀ x, ¬ Owns (t.removeSessions fun h _ => handles.contains h).sessions e x := by
      intro x hx
      obtain ⟨r, hr, he, hk⟩ := owns_removeSessions hx
      rcases hs.routes x ⟨r, hr, he⟩ with hah | ⟨ha', heq, hm⟩
      · rw [hno] at hah
        cases hah
      rw [hc] at heq
      cases heq
      simp [hm] at hk
    refine h.removeSessions _ hsi rfl
      ⟨hs.unspawned, fun _ x hx => (hg x hx).elim, fun hu => (hn hu).elim, hs.parked,
        fun _ => hre, fun _ => ⟨hre, rfl⟩, ?_, ?_, fun x hx => (hg x hx).elim⟩
    · intro hl hab ho
      rcases hs.reachable hl hab ho with ht | ha
      · exact .inl ht
      · rw [hc] at ha
        cases ha
    · intro hb
      have := hs.busy hb
      rw [hno] at this
      cases this

theorem coherent_advanceOpening (stopReturned room : Bool) :
    Coherent (t.advanceOpening stopReturned e site room) := by
  have hs := h.sound e site hsi
  obtain ⟨kind, record, opening, closing, ⟨stage, aborted⟩, closed, won⟩ := site
  cases opening with
  | reserve =>
    cases hs.unspawned rfl
    simp only [Tables.advanceOpening]
    split_ifs with hl
    · exact h.set_same hsi rfl ⟨fun _ => rfl, fun _ => hs.inserted rfl, nofun, nofun, hs.closing,
        hs.closed, nofun, not_between nofun nofun, hs.routes⟩
    · exact h.set hsi rfl ⟨fun _ => rfl, fun _ => hs.inserted rfl, fun _ => hs.recorded rfl, nofun,
        hs.closing, hs.closed, nofun, not_between nofun nofun, hs.routes⟩
  | insertSession =>
    cases hs.unspawned rfl
    have hah := scanAhead_of_record _ (hs.recorded rfl)
    refine h.insertRoute hsi (n := t.pendingHandshakes) rfl ⟨fun _ => rfl, ?_, nofun, nofun,
      hs.closing, hs.closed, nofun, not_between nofun nofun, fun _ _ => .inl hah⟩
    intro _ x hx
    rcases owns_insertRoute hx with hol | ⟨hnew, -⟩
    · cases hs.inserted rfl x hol
    · rw [hnew]
      rfl
  | publish session =>
    cases hs.unspawned rfl
    simp only [Tables.advanceOpening]
    split_ifs with hro
    · exact h.set_same hsi rfl ⟨nofun, nofun, nofun, fun _ => .inl rfl, hs.closing, hs.closed,
        fun _ _ hne => (hne rfl).elim, not_between nofun nofun, hs.routes⟩
    cases session with
    | some session | none =>
      exact h.set_same hsi rfl ⟨fun _ => rfl, fun _ => hs.inserted rfl, nofun, nofun, hs.closing,
        hs.closed, nofun, not_between nofun nofun, hs.routes⟩
  | discardSession session error =>
    cases hs.unspawned rfl
    have hg : ∀ x, ¬ Owns (t.removeSessions fun h _ => h == session).sessions e x := by
      intro x hx
      obtain ⟨r, hr, he, hk⟩ := owns_removeSessions hx
      cases hs.inserted rfl x ⟨r, hr, he⟩
      simp at hk
    exact h.removeSessions _ hsi rfl ⟨fun _ => rfl, fun _ x hx => (hg x hx).elim, nofun, nofun,
      hs.closing, hs.closed, nofun, not_between nofun nofun, fun x hx => (hg x hx).elim⟩
  | discardEndpoint error =>
    cases hs.unspawned rfl
    have hn : ∀ x, ¬ Owns t.sessions e x := fun x hx => by cases hs.inserted rfl x hx
    exact h.set_same hsi rfl ⟨nofun, nofun, nofun, nofun, fun _ => rfl,
      fun hc => ⟨rfl, (hs.closed hc).2⟩, nofun, not_between nofun nofun, fun x hx => (hn x hx).elim⟩
  | register =>
    simp only [Tables.advanceOpening]
    split_ifs with hre
    · have ho := hs.open_of_closing hre
      refine h.set_same hsi rfl ⟨nofun, nofun, nofun, fun _ => hs.parked (.inl rfl), ?_, ?_,
        fun _ _ _ => .inl rfl, fun _ => rfl, fun _ _ => .inl rfl⟩
      · intro hcl
        rw [ho] at hcl
        cases hcl
      · intro hc
        have hn : record = none := (hs.closed hc).1
        rw [hn] at hre
        cases hre
    · exact h.set_same hsi rfl ⟨nofun, nofun, nofun, nofun, hs.closing, hs.closed, nofun, hs.busy,
        hs.routes⟩
  | start =>
    have hp : stage = .waiting ∨ stage = .ended := hs.parked (.inr rfl)
    have hrea := hs.reachable
    rcases hp with rfl | rfl
    · exact h.set_same hsi rfl ⟨nofun, nofun, nofun, nofun, hs.closing, hs.closed,
        fun _ ha _ => hrea rfl ha nofun, not_between nofun nofun, hs.routes⟩
    · exact h.set_same hsi rfl ⟨nofun, nofun, nofun, nofun, hs.closing, hs.closed, nofun,
        not_between nofun nofun, hs.routes⟩
  | returned result => exact h

end

theorem Sound.not_early (h : Sound sessions e site) (hl : live site.task = true) :
    ¬ early site.opening = true := by
  intro he
  rw [live, h.unspawned he] at hl
  cases hl

/-- The task moves on: what may not go wrong when it stands at `stage` next. -/
theorem Sound.stage (h : Sound sessions e site) (stage : TaskStage) (hl : live site.task = true)
    (hp : stage = .ended ∨ site.task.stage ≠ .waiting)
    (hb : between { site with task := { site.task with stage := stage } } = true →
      scanAhead site = true) :
    Sound sessions e { site with task := { site.task with stage := stage } } := by
  refine ⟨fun he => absurd he (h.not_early hl), h.inserted, h.recorded, ?_, h.closing, h.closed,
    fun _ => h.reachable hl, hb, h.routes⟩
  intro ho
  rcases hp with hen | hm
  · exact .inr hen
  rcases h.parked ho with hwa | hen
  · exact (hm hwa).elim
  · rw [live, hen] at hl
    cases hl

theorem Sound.grow (h : Sound sessions e site) (hl : live site.task = true)
    (ha : scanAhead site = true) (sessions' : Table Handle Route) : Sound sessions' e site :=
  ⟨h.unspawned, fun he => absurd he (h.not_early hl), h.recorded, h.parked, h.closing, h.closed,
    h.reachable, h.busy, fun _ _ => .inl ha⟩

theorem live_of_stage (hst : task.stage = stage) (h : stage ≠ .unspawned ∧ stage ≠ .ended) :
    live task = true := by
  subst hst
  simp [live, h]

theorem coherent_setStage (h : Coherent t) (hs : t.sites.lookup e = some site)
    (hst : site.task.stage = old) (hl : old ≠ .unspawned ∧ old ≠ .ended) (hf : old ≠ .reserved)
    (hf' : stage ≠ .reserved) (hp : stage = .ended ∨ old ≠ .waiting)
    (hb : between { site with task := { site.task with stage := stage } } = true →
      scanAhead site = true) : Coherent (t.setStage e site stage) := by
  subst hst
  refine h.set_same hs ?_ ((h.sound e site hs).stage _ (live_of_stage rfl hl) hp hb)
  change (_ || stage == .reserved) = (_ || site.task.stage == .reserved)
  rw [beq_eq_false_iff_ne.mpr hf, beq_eq_false_iff_ne.mpr hf']

/-- A suspended task that can run again belongs to an endpoint whose scan is ahead. -/
theorem Sound.wake (h : Sound sessions e site) (hs : site.task.stage = .suspended)
    (ha : site.task.aborted = false) : scanAhead site = true := by
  have ho : site.opening ≠ .register := by
    intro ho
    rcases h.parked (.inl ho) with hwa | he
    · rw [hs] at hwa
      cases hwa
    · rw [hs] at he
      cases he
  rcases h.reachable (live_of_stage hs (by decide)) ha ho with hr | hc
  · exact scanAhead_of_record _ (by rw [hr]; rfl)
  · rw [scanAhead, hc]
    exact Bool.or_true _

section

variable (h : Coherent t) (hsi : t.sites.lookup e = some site)
include h hsi

theorem coherent_accept (hst : site.task.stage = .admitted) : Coherent (t.accept e site) := by
  unfold Tables.accept
  split_ifs with hr hli
  · exact coherent_setStage h hsi hst (by decide) (by decide) (by decide) (.inl rfl)
      (not_between nofun nofun)
  · exact coherent_setStage h hsi hst (by decide) (by decide) (by decide) (.inr (by decide))
      fun _ => scanAhead_of_record _ (by simpa [Option.ne_none_iff_isSome] using hr)
  have ha := scanAhead_of_record site
    (by simpa [Option.ne_none_iff_isSome] using hr)
  have hmo := (h.sound e site hsi).stage .running (live_of_stage hst (by decide))
    (.inr (by rw [hst]; decide)) fun _ => ha
  refine h.insertRoute hsi ?_ (hmo.grow rfl ha _)
  simp [held, reserving, hst]

theorem coherent_reserve (hk : site.kind = .datagramListener) (hst : site.task.stage = .running) :
    Coherent (t.reserve e site) := by
  have hs := h.sound e site hsi
  have hl := live_of_stage hst (by decide)
  have ho : site.opening ≠ .insertSession := fun ho => hs.not_early hl (by rw [ho]; rfl)
  unfold Tables.reserve
  split_ifs with hli
  · exact h
  refine h.set hsi ?_ (hs.stage _ hl (.inr (by rw [hst]; decide)) fun _ =>
    hs.busy (by simp [between, hk, hst]))
  simp [held, reserving, hst, ho]

theorem coherent_register (hst : site.task.stage = .reserved) :
    Coherent ((t.insertRoute e).setStage e site .running) := by
  have hs := h.sound e site hsi
  have hl := live_of_stage hst (by decide)
  have ha := hs.busy (by simp [between, hst])
  have ho : site.opening ≠ .insertSession := fun ho => hs.not_early hl (by rw [ho]; rfl)
  have hm := hs.stage .running hl (.inr (by rw [hst]; decide)) fun _ => ha
  refine h.insertRoute hsi (n := t.pendingHandshakes) ?_ (hm.grow rfl ha _)
  simp [held, reserving, hst, ho]

theorem coherent_failEndpoint (hst : site.task.stage = .running) :
    Coherent (t.failEndpoint e site) := by
  have hs := h.sound e site hsi
  have hsp := hs.not_early (live_of_stage hst (by decide))
  unfold Tables.failEndpoint
  split_ifs with hr
  · exact coherent_setStage h hsi hst (by decide) (by decide) (by decide) (.inl rfl)
      (not_between nofun nofun)
  have hg : ∀ x, ¬ Owns (t.removeSessions fun _ r => r.endpoint == e).sessions e x := by
    intro x hx
    obtain ⟨r, -, hen, hk⟩ := owns_removeSessions hx
    simp [hen] at hk
  refine h.removeSessions _ hsi (by rw [reserving, reserving, hst]; rfl)
    ⟨fun he => (hsp he).elim, fun he => (hsp he).elim, ?_,
      fun _ => .inr rfl, fun _ => rfl, fun hc => ⟨rfl, (hs.closed hc).2⟩, nofun,
      not_between nofun nofun, fun x hx => (hg x hx).elim⟩
  exact fun hu => (hsp (early_of_unsessioned hu)).elim

end

/-- **Every access keeps the tables coherent**, if the schedule is calm when an endpoint closes. -/
theorem coherent_act (h : Coherent t) (lifecycle : Lifecycle) (stopReturned : Bool)
    (hc : calm t e action = true) : Coherent (t.act lifecycle stopReturned e action) := by
  unfold Tables.act
  rcases hsi : t.sites.lookup e with - | site
  · exact h
  cases action with
  | opening room => exact coherent_advanceOpening h hsi stopReturned room
  | closeEndpoint =>
    rw [calm, hsi, Option.all_some] at hc
    exact coherent_removeEndpoint h hsi hc
  | closing =>
    rw [calm, hsi, Option.all_some, Bool.not_eq_true'] at hc
    exact coherent_advanceClosing h hsi hc
  | wake =>
    dsimp only
    split_ifs with hst
    · exact coherent_setStage h hsi hst.1 (by decide) (by decide) (by decide) (.inr (by decide))
        fun _ => (h.sound e site hsi).wake hst.1 hst.2
    · exact h
  | suspend =>
    dsimp only
    split_ifs with hst
    · exact coherent_setStage h hsi hst (by decide) (by decide) (by decide) (.inr (by decide))
        (not_between nofun nofun)
    · exact h
  | admission =>
    dsimp only
    split_ifs with hst
    · exact coherent_setStage h hsi hst.2.1 (by decide) (by decide) (by decide) (.inr (by decide))
        (not_between nofun nofun)
    · exact h
  | accept =>
    dsimp only
    split_ifs with hst
    · exact coherent_accept h hsi hst
    · exact h
  | reserve =>
    dsimp only
    split_ifs with hst
    · exact coherent_reserve h hsi hst.1 hst.2
    · exact h
  | register =>
    dsimp only
    split_ifs with hst
    · exact coherent_register h hsi hst
    · exact h
  | fail =>
    dsimp only
    split_ifs with hst
    · exact coherent_failEndpoint h hsi hst
    · exact h
  | cancel =>
    dsimp only
    split_ifs with hst
    · rcases hst.1 with hca | hca <;>
        exact coherent_setStage h hsi hca (by decide) (by decide) (by decide) (.inl rfl)
          (not_between nofun nofun)
    · exact h

/-! ### The other steps -/

theorem Coherent.shrink (h : Coherent t) (hsi : t'.sites = t.sites)
    (hn : t'.nextEndpoint = t.nextEndpoint) (hse : t'.nextSession = t.nextSession)
    (hsu : ∀ x r, t'.sessions.lookup x = some r →
      ∃ r', t.sessions.lookup x = some r' ∧ r'.endpoint = r.endpoint)
    (hc : t'.pendingHandshakes + pendingRoutes t.sessions =
      t.pendingHandshakes + pendingRoutes t'.sessions) : Coherent t' := by
  refine ⟨?_, ?_, ?_, ?_⟩
  · intro e site hs
    rw [hsi] at hs
    refine (h.sound e site hs).mono fun x hx => ?_
    obtain ⟨r, hr, he⟩ := hx
    obtain ⟨r', hr', he'⟩ := hsu x r hr
    exact ⟨r', hr', he'.trans he⟩
  · intro e site hs
    rw [hsi] at hs
    rw [hn]
    exact h.fresh e site hs
  · intro x r hx
    obtain ⟨r', hr', he⟩ := hsu x r hx
    rw [hse, hsi, ← he]
    exact h.known x r' hr'
  · have hb := h.balanced
    simp only [reservations, Bool.true_and, hsi] at hb ⊢
    simp only [pendingRoutes] at hc
    omega

theorem coherent_closeSession (h : Coherent t) (x : Handle) : Coherent (t.closeSession x) := by
  refine h.shrink rfl rfl rfl ?_ (pendingRoutes_removeSessions h _)
  intro y r hy
  obtain ⟨r', hr', he, -⟩ := owns_removeSessions (e := r.endpoint) ⟨r, hy, rfl⟩
  exact ⟨r', hr', he⟩

theorem coherent_establish (h : Coherent t) (x : Handle) : Coherent (t.establish x) := by
  unfold Tables.establish
  rcases hl : t.sessions.lookup x with - | route
  · exact h
  refine h.shrink rfl rfl rfl ?_ ?_
  · intro y r hy
    rw [lookup_insert_ite] at hy
    split_ifs at hy with he
    · cases hy
      exact ⟨route, he ▸ hl, rfl⟩
    · exact ⟨r, hy, rfl⟩
  · have hi := countP_insert t.sessions (fun _ r => !r.established) x
      { route with established := true }
    have hb := h.balanced
    rw [hl, Option.any_some] at hi
    simp only [reservations, Bool.true_and] at hb
    simp only [pendingRoutes]
    obtain ⟨endpoint, established⟩ := route
    cases established
    · simp only [Bool.not_false, Bool.not_true, if_true, Bool.false_eq_true, if_false] at hi ⊢
      omega
    · simp only [Bool.not_true, Bool.false_eq_true, if_false, if_true] at hi ⊢
      omega

theorem sound_opened (hn : ∀ x, ¬ Owns sessions e x) (kind : EndpointKind) :
    Sound sessions e (.opened kind) := by
  refine ⟨fun _ => rfl, fun _ x hx => (hn x hx).elim, fun _ => rfl, ?_, nofun, nofun, nofun,
    not_between nofun nofun, fun x hx => (hn x hx).elim⟩
  cases kind <;> rintro (h | h) <;> cases h

theorem coherent_insertEndpoint (h : Coherent t) (hi : t.insertEndpoint kind = .ok (t', e)) :
    Coherent t' := by
  have hn := h.lookup_next
  have hno : ∀ x, ¬ Owns t.sessions t.nextEndpoint x := by
    rintro x ⟨r, hr, hen⟩
    have hso := (h.known x r hr).2
    rw [hen, hn] at hso
    cases hso
  unfold Tables.insertEndpoint at hi
  split_ifs at hi with hl
  cases hi
  refine ⟨?_, ?_, ?_, ?_⟩
  · intro e' site hs
    rw [lookup_insert_ite] at hs
    split_ifs at hs with he
    · cases hs
      rw [he]
      exact sound_opened hno kind
    · exact h.sound e' site hs
  · intro e' site hs
    rw [lookup_insert_ite] at hs
    split_ifs at hs with he
    · rw [he]
      exact Nat.lt_succ_self _
    · exact Nat.lt_succ_of_lt (h.fresh e' site hs)
  · intro x r hx
    refine ⟨(h.known x r hx).1, ?_⟩
    rw [lookup_insert_ite]
    split_ifs
    · rfl
    · exact (h.known x r hx).2
  · have hc := countP_insert t.sites (fun _ site => reserving site) t.nextEndpoint (.opened kind)
    have hf : reserving (.opened kind) = false := by cases kind <;> rfl
    have hb := h.balanced
    rw [hn, hf] at hc
    simp only [Option.any_none, Bool.false_eq_true, if_false, Nat.add_zero] at hc
    simp only [reservations, Bool.true_and] at hb ⊢
    rw [hc]
    exact hb

/-! ### Runs -/

theorem tables_advanceCaller (s : Runtime) (id : ℕ) (c : Caller) (attempt : Attempt) :
    (s.advanceCaller id c attempt).tables = s.tables ∨ (c.stage = .insertEndpoint ∧
      ∃ e, s.tables.insertEndpoint c.kind = .ok ((s.advanceCaller id c attempt).tables, e)) := by
  unfold Runtime.advanceCaller
  split
  · split
    · split <;> exact .inl rfl
    · exact .inl rfl
  · split <;> exact .inl rfl
  · rename_i hs
    split
    · exact .inl rfl
    · rename_i tables e hi
      exact .inr ⟨hs, e, hi⟩
  · split <;> exact .inl rfl
  · exact .inl rfl

theorem tables_advanceStop (s : Runtime) (id : ℕ) (stage : StopStage) :
    (s.advanceStop id stage).tables = s.tables ∨ ∃ e rest site,
      stage = .removing (e :: rest) ∧ s.tables.sites.lookup e = some site ∧
        (s.advanceStop id stage).tables = s.tables.removeEndpoint e site := by
  unfold Runtime.advanceStop
  split
  case h_6 e rest =>
    split
    · exact .inl rfl
    rename_i site hs
    split_ifs
    · exact .inr ⟨e, rest, site, rfl, hs, rfl⟩
    · exact .inl rfl
  all_goals first
    | exact .inl rfl
    | (split <;> exact .inl rfl)

/-- A schedule that is calm whenever an endpoint closes, by a call of `close_endpoint` or of
`stop`. -/
def orderly (s : Runtime) : Input → Bool
  | .endpoint e action => calm s.tables e action
  | .advanceStop id =>
    match s.stops.lookup id with
    | some (.removing (e :: _)) => calm s.tables e .closeEndpoint
    | _ => true
  | _ => true

theorem coherent_step (h : Coherent s.tables) (ho : orderly s input = true) :
    Coherent (s.step input).tables := by
  cases input with
  | call id entry kind further =>
    have hs : (s.call id entry kind further).tables = s.tables := by
      unfold Runtime.call
      split <;> first | rfl | (split_ifs <;> rfl)
    change Coherent (s.call id entry kind further).tables
    rw [hs]
    exact h
  | caller id attempt =>
    simp only [Runtime.step]
    rcases s.callers.lookup id with - | c
    · exact h
    rcases tables_advanceCaller s id c attempt with hs | ⟨-, e, hi⟩
    · rw [hs]
      exact h
    · exact coherent_insertEndpoint h hi
  | endpoint e action => exact coherent_act h _ _ ho
  | establish x => exact coherent_establish h x
  | closeSession x => exact coherent_closeSession h x
  | stop id representable =>
    simp only [Runtime.step]
    split_ifs <;> exact h
  | advanceStop id =>
    simp only [Runtime.step]
    rcases hst : s.stops.lookup id with - | stage
    · exact h
    rcases tables_advanceStop s id stage with hs | ⟨e, rest, site, rfl, hsi, hr⟩
    · rw [hs]
      exact h
    rw [hr]
    simp only [orderly, hst, calm, hsi, Option.all_some] at ho
    exact coherent_removeEndpoint h hsi ho

theorem coherent_new (maxEndpoints maxPendingHandshakes : ℕ) :
    Coherent (Runtime.new maxEndpoints maxPendingHandshakes).tables := by
  refine ⟨?_, ?_, ?_, rfl⟩
  all_goals
    intro x y hx
    simp [Runtime.new] at hx

theorem coherent_reach (h : Runtime.machine.Reach (fun s input => orderly s input = true) s) :
    Coherent s.tables := by
  refine h.invariant (I := fun s => Coherent s.tables) ?_ fun s input hs => coherent_step hs
  rintro s ⟨maxEndpoints, maxPendingHandshakes, rfl⟩
  exact coherent_new maxEndpoints maxPendingHandshakes

/-- **A closed endpoint has no session and no reservation.** In an orderly schedule, once a
`close_endpoint` has returned, no session route names its endpoint, and every pending-handshake
reservation the runtime counts belongs to another endpoint. -/
theorem closed_endpoint_holds_nothing {s : Runtime}
    (h : Runtime.machine.Reach (fun s input => orderly s input = true) s) {e : Handle} {site : Site}
    (hsi : s.tables.sites.lookup e = some site) (hclo : site.closed = true) :
    (∀ x r, s.tables.sessions.lookup x = some r → r.endpoint ≠ e) ∧
      s.tables.pendingHandshakes = reservations s.tables fun e' => e' != e := by
  have hc := coherent_reach h
  have hs := hc.sound e site hsi
  obtain ⟨hr, hcl⟩ := hs.closed hclo
  have hn : scanAhead site = false := by rw [scanAhead, hr, hcl]; rfl
  have hro : ∀ x r, s.tables.sessions.lookup x = some r → r.endpoint ≠ e := by
    intro x r hx hen
    rcases hs.routes x ⟨r, hx, hen⟩ with ha | ⟨handles, he, -⟩
    · rw [hn] at ha
      cases ha
    · rw [hcl] at he
      cases he
  have hf : reserving site = false := by
    rw [reserving, Bool.or_eq_false_iff, beq_eq_false_iff_ne, beq_eq_false_iff_ne]
    refine ⟨fun hop => ?_, fun hst => ?_⟩
    · have := hs.recorded (by rw [hop]; rfl)
      rw [hr] at this
      cases this
    · have := hs.busy (by rw [between, hst]; rfl)
      rw [hn] at this
      cases this
  refine ⟨hro, hc.balanced.trans ?_⟩
  unfold reservations
  congr 1
  · refine countP_congr fun x r hx => ?_
    have ho : (r.endpoint != e) = true := bne_iff_ne.mpr (hro x r hx)
    simp only [ho]
  · refine countP_congr fun e' site' hs' => ?_
    by_cases he : e' = e
    · subst he
      cases hsi.symm.trans hs'
      rw [hf, Bool.and_false, Bool.and_false]
    · have ho : (e' != e) = true := bne_iff_ne.mpr he
      simp only [ho]

/-! ### Two schedules -/

/-- A `listen` on UDP that returns endpoint `1`; then its worker runs. -/
def listening : List Input :=
  [.call 0 .listen .datagramListener 0, .caller 0 .succeeds, .caller 0 .succeeds,
    .caller 0 .succeeds, .endpoint 1 (.opening true), .endpoint 1 (.opening true),
    .endpoint 1 (.opening true), .caller 0 .succeeds, .endpoint 1 .wake]

def closeCall : List Input :=
  [.endpoint 1 .closeEndpoint, .endpoint 1 .closing, .endpoint 1 .closing, .endpoint 1 .closing]

/-- The worker finishes a handshake and registers the session; then it is cancelled. -/
def lateRegistration : List Input :=
  [.endpoint 1 .reserve, .endpoint 1 .register, .endpoint 1 .suspend, .endpoint 1 .cancel]

/-- The call runs to its end while the worker is just before its registration. -/
def overtaken : Runtime :=
  Runtime.machine.run (.new 4 4) (listening ++ closeCall ++ lateRegistration)

/-- **A session registered after the scan stays.** The call has returned and the worker is
cancelled; its session and its reservation are left. -/
theorem late_session_survives_close :
    Runtime.machine.Reach (fun _ _ => True) overtaken ∧
      ((overtaken.tables.sites.lookup 1).any fun site =>
        site.closed && site.task.stage == .ended) = true ∧
      overtaken.tables.sessions.lookup 1 = some ⟨1, false⟩ ∧
      overtaken.tables.pendingHandshakes = 1 :=
  ⟨.run_free (fun _ _ => trivial) _ (.start ⟨4, 4, rfl⟩), by decide +kernel, by decide +kernel,
    by decide +kernel⟩

/-- The worker registers a session and waits for the next datagram while the call runs. -/
def awaited : Runtime :=
  Runtime.machine.run (.new 4 4)
    (listening ++ [.endpoint 1 .reserve, .endpoint 1 .register, .endpoint 1 .suspend] ++ closeCall ++
      [.endpoint 1 .cancel])

theorem closed_endpoint_holds_nothing_awaited :
    (∃ site, awaited.tables.sites.lookup 1 = some site ∧ site.closed = true) ∧
      (∀ x r, awaited.tables.sessions.lookup x = some r → r.endpoint ≠ 1) ∧
      awaited.tables.pendingHandshakes = reservations awaited.tables fun e' => e' != 1 := by
  have hc : (awaited.tables.sites.lookup 1).any (fun site => site.closed) = true := by
    decide +kernel
  rw [Option.any_eq_true] at hc
  obtain ⟨site, hs, hc⟩ := hc
  refine ⟨⟨site, hs, hc⟩, closed_endpoint_holds_nothing ?_ hs hc⟩
  exact Machine.reach_run _ (.start ⟨4, 4, rfl⟩) (by decide +kernel)

end Rnet.Transport.Closing
