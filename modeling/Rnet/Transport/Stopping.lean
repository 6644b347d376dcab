import Rnet.Transport.Closing

/-! # Stopping the runtime while endpoints are opened

`stop` takes one list of the endpoint table, closes what is on it and marks the runtime stopped.
`listen` and `connect` look at the lifecycle once, long before they insert their endpoint;
`connect_host` and `connect_resolved` never look at it. An endpoint inserted after the list was
taken is closed by nobody.

While a `stop` works, every endpoint still in the table is on the rest of its list. -/

namespace Rnet.Transport.Stopping

open Rnet.Core Lib.FiniteMap Lib.GuardedRun Registry Closing

/-! ### How a site changes -/

def registered : OpenStage → Bool
  | .start | .returned (.ok ()) => true
  | _ => false

/-- One access to the tables, seen from a site: an entry never comes back, a close starts from an
entry, and a task is registered only at an entry. -/
structure Evolves (stopReturned : Bool) (site site' : Site) : Prop where
  record : site'.record.isSome → site.record.isSome
  closing : site'.closing.isSome → site.closing.isSome ∨ site.record.isSome
  opening : registered site'.opening = true →
    registered site.opening = true ∨ (site.record.isSome ∧ site'.won = !stopReturned)
  won : site'.won = site.won ∨ (site.record.isSome ∧ site'.won = !stopReturned)

def Later (stopReturned : Bool) (t t' : Tables) : Prop :=
  ∀ e, Option.Rel (Evolves stopReturned) (t.sites.lookup e) (t'.sites.lookup e)

theorem Evolves.refl (stopReturned : Bool) (site : Site) : Evolves stopReturned site site :=
  ⟨id, .inl, .inl, .inl rfl⟩

variable {stopReturned : Bool} {t t' : Tables}

theorem Later.of_sites (h : t'.sites = t.sites) : Later stopReturned t t' := by
  intro e
  rw [h]
  rcases t.sites.lookup e with - | site
  · exact .none
  · exact .some (.refl _ _)

variable {e : Handle} {site : Site}

theorem Later.set (hsi : t.sites.lookup e = some site) (hs : t'.sites = t.sites.insert e site')
    (he : Evolves stopReturned site site') : Later stopReturned t t' := by
  intro e'
  rw [hs, lookup_insert_ite]
  split_ifs with heq
  · rw [heq, hsi]
    exact .some he
  rcases t.sites.lookup e' with - | other
  · exact .none
  · exact .some (.refl _ _)

theorem Later.setStage (hsi : t.sites.lookup e = some site) (hs : t'.sites = t.sites) :
    Later stopReturned t (t'.setStage e site stage) := by
  have hse : (t'.setStage e site stage).sites =
      t.sites.insert e { site with task := { site.task with stage := stage } } := by
    rw [Tables.setStage, Tables.set, hs]
  exact .set hsi hse ⟨id, .inl, .inl, .inl rfl⟩

theorem later_advanceOpening (hs : t.sites.lookup e = some site) (room : Bool) :
    Later stopReturned t (t.advanceOpening stopReturned e site room) := by
  obtain ⟨kind, record, opening, closing, task, closed, won⟩ := site
  cases opening with
  | reserve =>
    simp only [Tables.advanceOpening]
    split_ifs
    · exact .set hs rfl ⟨id, .inl, by simp [registered], .inl rfl⟩
    · exact .set hs rfl ⟨id, .inl, by simp [registered], .inl rfl⟩
  | insertSession => exact .set hs rfl ⟨id, .inl, by simp [registered], .inl rfl⟩
  | publish session =>
    simp only [Tables.advanceOpening]
    split_ifs
    · exact .set hs rfl ⟨id, .inl, by simp [registered], .inl rfl⟩
    · cases session <;> exact .set hs rfl ⟨id, .inl, by simp [registered], .inl rfl⟩
  | discardSession session error => exact .set hs rfl ⟨id, .inl, by simp [registered], .inl rfl⟩
  | discardEndpoint error => exact .set hs rfl ⟨by simp, .inl, by simp [registered], .inl rfl⟩
  | register =>
    simp only [Tables.advanceOpening]
    split_ifs with hr
    · exact .set hs rfl ⟨fun _ => hr, .inl, fun _ => .inr ⟨hr, rfl⟩,
        .inr ⟨hr, rfl⟩⟩
    · exact .set hs rfl ⟨id, .inl, by simp [registered], .inl rfl⟩
  | start => exact .set hs rfl ⟨id, .inl, fun _ => .inl rfl, .inl rfl⟩
  | returned result => exact .of_sites rfl

theorem later_removeEndpoint (hs : t.sites.lookup e = some site) :
    Later stopReturned t (t.removeEndpoint e site) := by
  unfold Tables.removeEndpoint
  rcases hr : site.record with - | handle
  · exact .of_sites rfl
  · exact .set hs rfl ⟨nofun, fun _ => .inr (by rw [hr]; rfl), .inl, .inl rfl⟩

theorem later_advanceClosing (hs : t.sites.lookup e = some site) :
    Later stopReturned t (t.advanceClosing e site) := by
  unfold Tables.advanceClosing
  split
  · exact .of_sites rfl
  · rename_i hc
    exact .set hs rfl ⟨id, fun _ => .inl (by rw [hc]; rfl), .inl, .inl rfl⟩
  · rename_i hc
    exact .set hs rfl ⟨id, fun _ => .inl (by rw [hc]; rfl), .inl, .inl rfl⟩
  · exact .set hs rfl ⟨id, nofun, .inl, .inl rfl⟩

/-- **Every access lets the sites evolve.** -/
theorem later_act (t : Tables) (lifecycle : Lifecycle) (stopReturned : Bool) (e : Handle)
    (action : Tables.Action) : Later stopReturned t (t.act lifecycle stopReturned e action) := by
  unfold Tables.act
  rcases hs : t.sites.lookup e with - | site
  · exact .of_sites rfl
  cases action with
  | opening room => exact later_advanceOpening hs room
  | closeEndpoint => exact later_removeEndpoint hs
  | closing => exact later_advanceClosing hs
  | accept =>
    dsimp only
    split_ifs with hst
    · unfold Tables.accept
      split_ifs
      · exact .setStage hs rfl
      · exact .setStage hs rfl
      · exact .setStage hs rfl
    · exact .of_sites rfl
  | reserve =>
    dsimp only
    split_ifs with hst
    · unfold Tables.reserve
      split_ifs
      · exact .of_sites rfl
      · exact .setStage hs rfl
    · exact .of_sites rfl
  | fail =>
    dsimp only
    split_ifs with hst
    · unfold Tables.failEndpoint
      split_ifs
      · exact .setStage hs rfl
      · exact .set hs rfl ⟨nofun, .inl, .inl, .inl rfl⟩
    · exact .of_sites rfl
  | wake | suspend | admission | register | cancel =>
    dsimp only
    split_ifs with hst
    · exact .setStage hs rfl
    · exact .of_sites rfl

/-! ### What is left of a list of endpoints -/

/-- The endpoints a `stop` still has to close, once it has taken its list. -/
def remaining : StopStage → Option (List Handle)
  | .removing rest | .waiting _ rest => some rest
  | .mark | .markSwap | .emit => some []
  | .load | .begin | .swap | .collect | .returned _ => none

def Within (t : Tables) (rest : List Handle) : Prop :=
  ∀ e site, t.sites.lookup e = some site → site.record.isSome → e ∈ rest

/-- What every run keeps. -/
structure Settled (s : Runtime) : Prop where
  coherent : Coherent s.tables
  covered : ∀ id stage rest, s.stops.lookup id = some stage → remaining stage = some rest →
    s.collected = true ∧ Within s.tables rest
  stopped : s.lifecycle = .stopped → s.collected = true ∧ Within s.tables []
  final : s.stopReturned = true → s.collected = true ∧ Within s.tables [] ∧
    ∀ e site, s.tables.sites.lookup e = some site → site.closing = none
  won : ∀ e site, s.tables.sites.lookup e = some site → registered site.opening = true →
    site.won = true
  succeeded : ∀ id c e, s.callers.lookup id = some c → c.stage = .returned (.ok e) →
    ∃ site, s.tables.sites.lookup e = some site ∧ site.won = true

theorem Later.back (h : Later stopReturned t t') (hs : t'.sites.lookup e = some site') :
    ∃ site, t.sites.lookup e = some site ∧ Evolves stopReturned site site' := by
  have he := h e
  rw [hs] at he
  generalize t.sites.lookup e = old at he
  cases he with
  | some hev => exact ⟨_, rfl, hev⟩

theorem Later.on (h : Later stopReturned t t') (hs : t.sites.lookup e = some site) :
    ∃ site', t'.sites.lookup e = some site' ∧ Evolves stopReturned site site' := by
  have he := h e
  rw [hs] at he
  generalize t'.sites.lookup e = new at he
  cases he with
  | some hev => exact ⟨_, rfl, hev⟩

theorem Within.later (h : Within t rest) (hl : Later stopReturned t t') : Within t' rest := by
  intro e site' hs' hr
  obtain ⟨site, hs, he⟩ := hl.back hs'
  exact h e site hs (he.record hr)

variable {s : Runtime}

theorem Settled.later (h : Settled s) (hl : Later s.stopReturned s.tables t)
    (hcoh : Coherent t) :
    Settled { s with tables := t } := by
  -- a task registered now finds its entry, so no `stop` has returned
  have hop : ∀ {e site}, s.tables.sites.lookup e = some site → site.record.isSome →
      s.stopReturned = false := by
    intro e site hs hr
    rcases hstop : s.stopReturned with - | -
    · rfl
    · cases (h.final hstop).2.1 e site hs hr
  refine ⟨hcoh, ?_, ?_, ?_, ?_, ?_⟩
  · intro id stage rest hst hres
    obtain ⟨hco, hwi⟩ := h.covered id stage rest hst hres
    exact ⟨hco, hwi.later hl⟩
  · intro hsto
    obtain ⟨hco, hwi⟩ := h.stopped hsto
    exact ⟨hco, hwi.later hl⟩
  · intro hret
    obtain ⟨hco, hwi, hcl⟩ := h.final hret
    refine ⟨hco, hwi.later hl, ?_⟩
    intro e site' hs'
    obtain ⟨site, hs, he⟩ := hl.back hs'
    rcases hn : site'.closing with - | stage
    · rfl
    rcases he.closing (by rw [hn]; rfl) with ho | hr
    · rw [hcl e site hs] at ho
      cases ho
    · cases hwi e site hs hr
  · intro e site' hs' hre
    obtain ⟨site, hs, he⟩ := hl.back hs'
    rcases he.won with hsa | ⟨hr, hwo⟩
    · rcases he.opening hre with ho | ⟨hr, hwo⟩
      · rw [hsa]
        exact h.won e site hs ho
      · rw [hwo, hop hs hr]
        rfl
    · rw [hwo, hop hs hr]
      rfl
  · intro id c e hc hst
    obtain ⟨site, hs, hwo⟩ := h.succeeded id c e hc hst
    obtain ⟨site', hs', he⟩ := hl.on hs
    refine ⟨site', hs', ?_⟩
    rcases he.won with hsa | ⟨hr, hn⟩
    · rw [hsa]
      exact hwo
    · rw [hn, hop hs hr]
      rfl

variable {id : ℕ}

theorem Settled.setStop (h : Settled s)
    (hc : ∀ rest, remaining stage = some rest → s.collected = true ∧ Within s.tables rest) :
    Settled (s.setStop id stage) := by
  refine ⟨h.coherent, ?_, h.stopped, h.final, h.won, h.succeeded⟩
  intro id' stage' rest hl
  rw [Runtime.setStop, lookup_insert_ite] at hl
  split_ifs at hl
  · cases hl
    exact hc rest
  · exact h.covered id' stage' rest hl

variable {c : Caller}

theorem Settled.setCaller (h : Settled s)
    (ho : ∀ e, c.stage = .returned (.ok e) →
      ∃ site, s.tables.sites.lookup e = some site ∧ site.won = true) :
    Settled (s.setCaller id c) := by
  refine ⟨h.coherent, h.covered, h.stopped, h.final, h.won, ?_⟩
  intro id' c' e hl
  rw [Runtime.setCaller, lookup_insert_ite] at hl
  split_ifs at hl
  · cases hl
    exact ho e
  · exact h.succeeded id' c' e hl

/-! ### Steps -/

/-- A schedule that is orderly, inserts an endpoint only while no `stop` has taken its list, and
lets a `stop` return only while no `close_endpoint` is in progress. -/
def timely (s : Runtime) (input : Input) : Bool :=
  orderly s input && match input with
    | .caller id _ =>
      (s.callers.lookup id).all fun c => !(c.stage == .insertEndpoint && s.collected)
    | .advanceStop id =>
      s.stops.lookup id != some .emit ||
        s.tables.sites.entries.all fun entry => entry.2.closing.isNone
    | _ => true

theorem Settled.insertEndpoint (h : Settled s) (ho : s.collected = false)
    (hi : s.tables.insertEndpoint kind = .ok (t, e)) : Settled { s with tables := t } := by
  have hcoh := coherent_insertEndpoint h.coherent hi
  have hn := h.coherent.lookup_next
  unfold Tables.insertEndpoint at hi
  split_ifs at hi
  cases hi
  have hcl : ∀ {p}, s.collected = true ∧ p → False := by
    rintro p ⟨hco, -⟩
    rw [ho] at hco
    cases hco
  refine ⟨hcoh, fun id stage rest hst hres => (hcl (h.covered id stage rest hst
    hres)).elim, fun hsto => (hcl (h.stopped hsto)).elim,
    fun hre => (hcl (h.final hre)).elim, ?_, ?_⟩
  · intro e' site hs hr
    rw [lookup_insert_ite] at hs
    split_ifs at hs
    · cases hs
      cases kind <;> cases hr
    · exact h.won e' site hs hr
  · intro id c e' hc hst
    obtain ⟨site, hs, hwo⟩ := h.succeeded id c e' hc hst
    refine ⟨site, ?_, hwo⟩
    rw [lookup_insert_ite, if_neg]
    · exact hs
    rintro rfl
    rw [hn] at hs
    cases hs

theorem Settled.attemptFailed (h : Settled s) :
    Settled (s.setCaller id (Runtime.attemptFailed c error)) := by
  refine h.setCaller fun e hs => ?_
  unfold Runtime.attemptFailed at hs
  split at hs <;> cases hs

theorem Settled.advanceCaller (h : Settled s)
    (hop : c.stage = .insertEndpoint → s.collected = false) (attempt : Attempt) :
    Settled (s.advanceCaller id c attempt) := by
  unfold Runtime.advanceCaller
  split
  · split_ifs
    · split <;> exact h.setCaller nofun
    · exact h.setCaller nofun
  · split
    · exact h.setCaller nofun
    · exact h.attemptFailed
    · exact h.setCaller nofun
  · rename_i hs
    split
    · exact h.attemptFailed
    · rename_i t e hi
      exact (h.insertEndpoint (hop hs) hi).setCaller nofun
  · rename_i e hs
    split
    · rename_i ho
      obtain ⟨site, hsi, hr⟩ := Option.map_eq_some_iff.mp ho
      refine h.setCaller fun e' he' => ?_
      cases he'
      exact ⟨site, hsi, h.won _ site hsi (by rw [hr]; rfl)⟩
    · exact h.attemptFailed
    · exact h
  · exact h

theorem Settled.advanceStop (h : Settled s) (hst : s.stops.lookup id = some stage)
    (ho : ∀ e rest site, stage = .removing (e :: rest) → s.tables.sites.lookup e = some site →
      sessioned site = true)
    (hq : stage = .emit → ∀ e site, s.tables.sites.lookup e = some site → site.closing = none) :
    Settled (s.advanceStop id stage) := by
  have hco := h.covered id stage
  cases stage with
  | load =>
    simp only [Runtime.advanceStop]
    split
    · rename_i hs
      refine h.setStop fun rest hr => ?_
      cases hr
      exact h.stopped hs
    all_goals exact h.setStop nofun
  | begin =>
    simp only [Runtime.advanceStop]
    split <;> exact h.setStop nofun
  | swap =>
    simp only [Runtime.advanceStop]
    split_ifs
    · have hd : Settled { s with lifecycle := .draining } :=
        ⟨h.coherent, h.covered, nofun, h.final, h.won, h.succeeded⟩
      exact hd.setStop nofun
    · exact h.setStop nofun
  | collect =>
    have hc : Settled { s with collected := true } :=
      ⟨h.coherent, fun id' stage' rest hlo hr =>
        ⟨rfl, (h.covered id' stage' rest hlo hr).2⟩, fun hs => ⟨rfl, (h.stopped hs).2⟩,
        fun hret => ⟨rfl, (h.final hret).2⟩, h.won, h.succeeded⟩
    refine hc.setStop fun rest hr => ?_
    cases hr
    refine ⟨rfl, ?_⟩
    intro e site hsi hre
    rw [Tables.handles, List.mem_map]
    exact ⟨⟨e, site⟩, List.mem_filter.mpr ⟨lookup_eq_some_iff.mp hsi, hre⟩, rfl⟩
  | removing rest =>
    obtain ⟨hc, hwi⟩ := hco rest hst rfl
    cases rest with
    | nil =>
      refine h.setStop fun rest hr => ?_
      cases hr
      exact ⟨hc, hwi⟩
    | cons e rest =>
      simp only [Runtime.advanceStop]
      rcases hsi : s.tables.sites.lookup e with - | site
      · refine h.setStop fun rest' hr => ?_
        cases hr
        refine ⟨hc, fun e' site' hs' hre => ?_⟩
        refine (List.mem_cons.mp (hwi e' site' hs' hre)).resolve_left ?_
        rintro rfl
        rw [hsi] at hs'
        cases hs'
      · dsimp only
        split_ifs with hre
        · have hla : Later s.stopReturned s.tables (s.tables.removeEndpoint e site) :=
            later_removeEndpoint hsi
          have hg := coherent_removeEndpoint h.coherent hsi (ho e rest site rfl hsi)
          refine (h.later hla hg).setStop fun rest' hr => ?_
          cases hr
          refine ⟨hc, fun e' site' hs' hr' => ?_⟩
          refine (List.mem_cons.mp (hwi.later hla e' site' hs' hr')).resolve_left ?_
          rintro rfl
          obtain ⟨handle, hh⟩ := Option.isSome_iff_exists.mp hre
          simp only [Tables.removeEndpoint, hh, Tables.set, lookup_insert_ite, if_true] at hs'
          cases hs'
          cases hr'
        · refine h.setStop fun rest' hr => ?_
          cases hr
          refine ⟨hc, fun e' site' hs' hr' => ?_⟩
          refine (List.mem_cons.mp (hwi e' site' hs' hr')).resolve_left ?_
          rintro rfl
          cases hsi.symm.trans hs'
          exact hre hr'
  | waiting e rest =>
    simp only [Runtime.advanceStop]
    split_ifs
    · exact h
    refine h.setStop fun rest' hr => ?_
    cases hr
    exact hco rest hst rfl
  | mark =>
    simp only [Runtime.advanceStop]
    split
    · refine h.setStop fun rest hr => ?_
      cases hr
      exact hco [] hst rfl
    · refine h.setStop fun rest hr => ?_
      cases hr
      exact hco [] hst rfl
    · exact h.setStop nofun
  | markSwap =>
    have hl := hco [] hst rfl
    simp only [Runtime.advanceStop]
    split_ifs
    · have hs : Settled { s with lifecycle := .stopped } :=
        ⟨h.coherent, h.covered, fun _ => hl, h.final, h.won, h.succeeded⟩
      refine hs.setStop fun rest hr => ?_
      cases hr
      exact hl
    · exact h.setStop nofun
  | emit =>
    have hl := hco [] hst rfl
    have hret : Settled { s with stopReturned := true } :=
      ⟨h.coherent, h.covered, h.stopped, fun _ => ⟨hl.1, hl.2, hq rfl⟩, h.won, h.succeeded⟩
    exact hret.setStop nofun
  | returned result => exact h

theorem settled_step (h : Settled s) (hti : timely s input = true) : Settled (s.step input) := by
  obtain ⟨ho, ht⟩ := Bool.and_eq_true_iff.mp hti
  cases input with
  | call id entry kind further =>
    change Settled (s.call id entry kind further)
    unfold Runtime.call
    split
    · exact h
    all_goals
      split_ifs
      all_goals first
        | exact h
        | exact h.setCaller (by simp)
  | caller id attempt =>
    simp only [Runtime.step]
    rcases hl : s.callers.lookup id with - | c
    · exact h
    refine h.advanceCaller ?_ attempt
    intro hsta
    simpa [hl, hsta] using ht
  | endpoint e action => exact h.later (later_act _ _ _ _ _) (coherent_act h.coherent _ _ ho)
  | establish x =>
    refine h.later (.of_sites ?_) (coherent_establish h.coherent x)
    unfold Tables.establish
    split <;> rfl
  | closeSession x => exact h.later (.of_sites rfl) (coherent_closeSession h.coherent x)
  | stop id representable =>
    simp only [Runtime.step]
    split_ifs
    · exact h
    · exact h.setStop (by simp [remaining])
    · exact h.setStop (by simp [remaining])
  | advanceStop id =>
    simp only [Runtime.step]
    rcases hst : s.stops.lookup id with - | stage
    · exact h
    refine h.advanceStop hst ?_ ?_
    · rintro e rest site rfl hs
      simpa [orderly, hst, calm, hs] using ho
    rintro rfl e site hs
    have ha : ∀ entry ∈ s.tables.sites.entries, entry.2.closing.isNone = true := by
      simpa [hst] using ht
    simpa using ha ⟨e, site⟩ (lookup_eq_some_iff.mp hs)

theorem settled_new (maxEndpoints maxPendingHandshakes : ℕ) :
    Settled (.new maxEndpoints maxPendingHandshakes) := by
  refine ⟨coherent_new _ _, ?_, nofun, nofun, ?_, ?_⟩
  · intro id stage rest hs
    simp [Runtime.new] at hs
  · intro e site hsi
    simp [Runtime.new] at hsi
  · intro id c e hc
    simp [Runtime.new] at hc

theorem settled_reach (h : Runtime.machine.Reach (fun s input => timely s input = true) s) :
    Settled s := by
  refine h.invariant (I := Settled) ?_ fun s input hs => settled_step hs
  rintro s ⟨maxEndpoints, maxPendingHandshakes, rfl⟩
  exact settled_new maxEndpoints maxPendingHandshakes

/-- **A stopped runtime stays empty.** In a timely schedule, from the moment a `stop` has returned
`Ok` the endpoint table and the session table are empty, and every opening call that returned `Ok`
had registered its task before. -/
theorem stop_is_final {s : Runtime}
    (h : Runtime.machine.Reach (fun s input => timely s input = true) s)
    (hst : s.stopReturned = true) :
    (∀ e site, s.tables.sites.lookup e = some site → site.record = none) ∧
      (∀ x, s.tables.sessions.lookup x = none) ∧
      ∀ id c e, s.callers.lookup id = some c → c.stage = .returned (.ok e) →
        ∃ site, s.tables.sites.lookup e = some site ∧ site.won = true := by
  have hs := settled_reach h
  obtain ⟨-, hwi, hc⟩ := hs.final hst
  have hr : ∀ e site, s.tables.sites.lookup e = some site → site.record = none := by
    intro e site hsi
    rcases hso : site.record with - | handle
    · rfl
    · cases hwi e site hsi (by rw [hso]; rfl)
  refine ⟨hr, ?_, hs.succeeded⟩
  intro x
  rcases hx : s.tables.sessions.lookup x with - | r
  · rfl
  obtain ⟨site, hsi⟩ := Option.isSome_iff_exists.mp (hs.coherent.known x r hx).2
  rcases (hs.coherent.sound _ site hsi).routes x ⟨r, hx, rfl⟩ with ha | ⟨_, he, -⟩
  · rw [scanAhead, hr _ site hsi, hc _ site hsi] at ha
    cases ha
  · rw [hc _ site hsi] at he
    cases he

/-! ### Two schedules -/

def stopEmpty : List Input :=
  .stop 0 true :: List.replicate 8 (.advanceStop 0)

def connectLate : List Input :=
  [.call 1 .connectResolved .datagramClient 0, .caller 1 .succeeds, .caller 1 .succeeds,
    .endpoint 1 (.opening true), .endpoint 1 (.opening true), .endpoint 1 (.opening true),
    .endpoint 1 (.opening true), .endpoint 1 (.opening true), .caller 1 .succeeds]

def revived : Runtime := Runtime.machine.run (.new 4 4) (stopEmpty ++ connectLate)

/-- **A stopped runtime opens an endpoint.** A `connect_resolved` that starts after `stop` returned
`Ok` inserts an endpoint and a session and returns `Ok`. -/
theorem connect_after_stop :
    Runtime.machine.Reach (fun _ _ => True) revived ∧ revived.stopReturned = true ∧
      revived.lifecycle = .stopped ∧
      (revived.tables.sites.lookup 1).map Site.record = some (some true) ∧
      revived.tables.sessions.lookup 1 = some ⟨1, false⟩ ∧
      (revived.callers.lookup 1).map Caller.stage = some (.returned (.ok 1)) :=
  ⟨.run_free (fun _ _ => trivial) _ (.start ⟨4, 4, rfl⟩), by decide +kernel, by decide +kernel,
    by decide +kernel, by decide +kernel, by decide +kernel⟩

/-- A `listen` that succeeds, a `stop` that closes it, and a `connect` that comes too late. -/
def emptied : Runtime :=
  Runtime.machine.run (.new 4 4)
    (listening ++ [.endpoint 1 .suspend] ++ .stop 0 true :: List.replicate 5 (.advanceStop 0) ++
      [.endpoint 1 .closing, .endpoint 1 .closing, .endpoint 1 .closing] ++
      List.replicate 5 (.advanceStop 0) ++
      [.call 1 .connect .tcpClient 0, .caller 1 .succeeds])

theorem stop_is_final_emptied :
    emptied.stopReturned = true ∧
      (∀ e site, emptied.tables.sites.lookup e = some site → site.record = none) ∧
      (∀ x, emptied.tables.sessions.lookup x = none) ∧
      ∀ id c e, emptied.callers.lookup id = some c → c.stage = .returned (.ok e) →
        ∃ site, emptied.tables.sites.lookup e = some site ∧ site.won = true := by
  have hs : emptied.stopReturned = true := by decide +kernel
  refine ⟨hs, stop_is_final ?_ hs⟩
  exact Machine.reach_run _ (.start ⟨4, 4, rfl⟩) (by decide +kernel)

end Rnet.Transport.Stopping
