import Rnet.Game.SendCalls

/-! # Sends against cleanup and stop

In every interleaving a message is in a queue only while its session is ready or while the cleanup
that has to remove it is in progress. A send is admitted under the read side of the admission, so
whoever removes readiness finds the message it staged; a session that was forgotten is never opened
again, so it never becomes ready again. -/

namespace Rnet.Game.SendRaces

open Rnet.Core Lib.FiniteMap Lib.GuardedRun
open Game.Runtime (Outgoing)
open SendCalls

/-! ### Where a session can be -/

section Facts

variable (w : World) (s : Handle)

def Ready : Prop := w.ready.lookup s = some ()

def Negotiating : Prop := w.negotiations.lookup s = some ()

def Staged : Prop := ∃ m, (s, m) ∈ w.scheduled

def StagedLatest : Prop := ∃ key m, w.realtime.lookup (s, key) = some m

def Opened : Prop :=
  ∃ r, w.sessions.lookup s = some r ∧ (r.stage = .established ∨ r.stage = .closed)

def Home (endpoint : Handle) : Prop := ∃ r, w.sessions.lookup s = some r ∧ r.endpoint = endpoint

end Facts

/-- Nothing of the endpoint is opened any more. -/
def Shut (w : World) (endpoint : Handle) : Prop :=
  w.transports.lookup endpoint = none ∨ w.task.retired = some endpoint

def Barred (w : World) (s : Handle) : Prop :=
  ∃ r, w.sessions.lookup s = some r ∧
    (r.stage = .closed ∨ r.stage = .rejected ∨ w.running = false ∨ Shut w r.endpoint)

/-- **A cleanup in progress**: the session is in none of the tables that are done. -/
structure Cleaning (w : World) (s : Handle) (left : List Part) : Prop where
  tail : left ∈ parts.tails
  barred : Barred w s
  ready : .admission ∉ left → ¬Ready w s
  latest : .realtime ∉ left → ¬StagedLatest w s
  scheduled : .scheduled ∉ left → ¬Staged w s
  range : .range ∉ left → ¬Negotiating w s

/-- The cleanup of the session has returned, or it was rejected. -/
def Finished (w : World) (s : Handle) : Prop := s ∈ w.forgotten ∨ (w.rejections.lookup s).isSome

def Homes (w : World) (endpoint : Handle) (sessions : List Handle) : Prop :=
  ∀ s ∈ sessions, Home w s endpoint

/-- What is known while the owner of the poll lock is at work. -/
def Doing (w : World) : Task → Prop
  | .idle => True
  | .opening s endpoint =>
    w.running = true ∧ Opened w s ∧ ¬Finished w s ∧ Home w s endpoint
  | .publishing s => Negotiating w s
  | .forwarding s _ => Ready w s
  | .forwardingLatest s _ _ => Ready w s
  | .forgetting s left after =>
    Cleaning w s left ∧ ∀ endpoint sessions, after = some (endpoint, sessions) →
      Homes w endpoint sessions
  | .retiring endpoint sessions => Homes w endpoint sessions
  | .drained => w.running = false
  | .halted => w.running = false
  | .rangeCleared => w.running = false ∧ ∀ s, ¬Negotiating w s
  | .readyCleared => w.running = false ∧ (∀ s, ¬Negotiating w s) ∧ ∀ s, ¬Ready w s
  | .realtimeCleared =>
    w.running = false ∧ (∀ s, ¬Negotiating w s) ∧ (∀ s, ¬Ready w s) ∧ ∀ s, ¬StagedLatest w s
  | .scheduledCleared =>
    w.running = false ∧ (∀ s, ¬Negotiating w s) ∧ (∀ s, ¬Ready w s) ∧ (∀ s, ¬StagedLatest w s) ∧
      ∀ s, ¬Staged w s

/-- **What every interleaving keeps** from a world `b` on. -/
structure Safe (b w : World) : Prop where
  forgotten : ∀ s ∈ b.forgotten, s ∈ w.forgotten
  returned : b.stopped = true → w.stopped = true
  homes : ∀ s r, w.sessions.lookup s = some r → r.endpoint ∈ w.endpoints
  owners : ∀ s endpoint, w.owners.lookup s = some endpoint → Home w s endpoint
  admitted : ∀ c ∈ w.calls, c.stage = .admitted → Ready w c.session
  ready : ∀ s, Ready w s → Opened w s
  range : ∀ s, Negotiating w s → Opened w s
  scheduled : ∀ s, Staged w s → Opened w s ∧ (Ready w s ∨ w.task.discards s .scheduled)
  latest : ∀ s, StagedLatest w s → Opened w s ∧ (Ready w s ∨ w.task.discards s .realtime)
  finished : ∀ s, Finished w s → Cleaning w s []
  doing : Doing w w.task
  stopped : w.stopped = true → Doing w .scheduledCleared

/-! ### Sessions move on -/

/-- Routes only move on, and what is shut stays so. -/
structure Evolves (w w' : World) : Prop where
  sessions : ∀ s r, w.sessions.lookup s = some r →
    ∃ r', w'.sessions.lookup s = some r' ∧ r'.endpoint = r.endpoint ∧ r.stage.Moves r'.stage
  shut : ∀ endpoint ∈ w.endpoints, Shut w endpoint → Shut w' endpoint
  running : w.running = false → w'.running = false

namespace Evolves

variable {w w' : World}

theorem opened (h : Evolves w w') {s : Handle} (ho : Opened w s) : Opened w' s := by
  obtain ⟨r, hr, hs⟩ := ho
  obtain ⟨r', hr', -, hm⟩ := h.sessions s r hr
  refine ⟨r', hr', ?_⟩
  rcases hs with hs | hs <;> rw [hs] at hm
  · exact hm
  · exact .inr hm

theorem home (h : Evolves w w') (hh : Home w s endpoint) : Home w' s endpoint := by
  obtain ⟨r, hr, he⟩ := hh
  obtain ⟨r', hr', hs, -⟩ := h.sessions s r hr
  exact ⟨r', hr', hs.trans he⟩

theorem barred (h : Evolves w w')
    (hh : ∀ s r, w.sessions.lookup s = some r → r.endpoint ∈ w.endpoints) (hb : Barred w s) :
    Barred w' s := by
  obtain ⟨r, hr, hwh⟩ := hb
  obtain ⟨r', hr', hsa, hm⟩ := h.sessions s r hr
  refine ⟨r', hr', ?_⟩
  rcases hwh with hs | hs | hru | hsh
  · rw [hs] at hm
    exact .inl hm
  · rw [hs] at hm
    rcases hm with hm | hm
    · exact .inr (.inl hm)
    · exact .inl hm
  · exact .inr (.inr (.inl (h.running hru)))
  · exact .inr (.inr (.inr (hsa ▸ h.shut _ (hh s r hr) hsh)))

end Evolves

variable {left : List Part} {part : Part}

theorem admission_not_mem (ht : left ∈ parts.tails)
    (hp : part = .realtime ∨ part = .scheduled) (hd : part ∉ left) : .admission ∉ left := by
  revert ht
  simp only [parts, List.tails, List.mem_cons, List.not_mem_nil, or_false]
  rintro (rfl | rfl | rfl | rfl | rfl | rfl) <;> rcases hp with rfl | rfl <;> simp_all

variable {w w' : World}

/-- **A cleanup keeps what it has done** while nobody makes the session ready or opens it. -/
theorem Cleaning.keep (h : Cleaning w s left) (he : Evolves w w')
    (hh : ∀ s r, w.sessions.lookup s = some r → r.endpoint ∈ w.endpoints)
    (hre : Ready w' s → Ready w s) (hr : Negotiating w' s → Negotiating w s)
    (hl : StagedLatest w' s → StagedLatest w s ∨ Ready w s)
    (hs : Staged w' s → Staged w s ∨ Ready w s) : Cleaning w' s left where
  tail := h.tail
  barred := he.barred hh h.barred
  ready hd := fun h' => h.ready hd (hre h')
  latest hd := fun h' => (hl h').elim (h.latest hd)
    (h.ready (admission_not_mem h.tail (.inl rfl) hd))
  scheduled hd := fun h' => (hs h').elim (h.scheduled hd)
    (h.ready (admission_not_mem h.tail (.inr rfl) hd))
  range hd := fun h' => h.range hd (hr h')

/-- What is known while the owner of the poll lock is at work stays so when others move. -/
theorem Doing.keep (h : Doing w t) (he : Evolves w w')
    (hh : ∀ s r, w.sessions.lookup s = some r → r.endpoint ∈ w.endpoints)
    (hr : w'.running = w.running) (hre : ∀ s, Ready w' s ↔ Ready w s)
    (hra : ∀ s, Negotiating w' s ↔ Negotiating w s)
    (hl : ∀ s, StagedLatest w' s → StagedLatest w s ∨ Ready w s)
    (hsc : ∀ s, Staged w' s → Staged w s ∨ Ready w s)
    (hfi : ∀ s, Opened w s → Finished w' s → Finished w s) : Doing w' t := by
  have hne : (∀ s, ¬Ready w s) → (∀ s, ¬StagedLatest w s) → ∀ s, ¬StagedLatest w' s :=
    fun hno hn s h' => (hl s h').elim (hn s) (hno s)
  cases t with
  | idle => trivial
  | opening s endpoint =>
    obtain ⟨hru, ho, hnot, hho⟩ := h
    exact ⟨hr.trans hru, he.opened ho, fun hf => hnot (hfi s ho hf),
      he.home hho⟩
  | publishing s => exact (hra s).mpr h
  | forwarding s m | forwardingLatest s key m => exact (hre s).mpr h
  | forgetting s left after =>
    refine ⟨h.1.keep he hh (hre s).mp (hra s).mp (hl s) (hsc s), ?_⟩
    exact fun endpoint sessions ha s' hs' => he.home (h.2 endpoint sessions ha s' hs')
  | retiring endpoint sessions => exact fun s hs => he.home (h s hs)
  | drained | halted => exact hr.trans h
  | rangeCleared => exact ⟨hr.trans h.1, fun s h' => h.2 s ((hra s).mp h')⟩
  | readyCleared =>
    exact ⟨hr.trans h.1, fun s h' => h.2.1 s ((hra s).mp h'),
      fun s h' => h.2.2 s ((hre s).mp h')⟩
  | realtimeCleared =>
    obtain ⟨hru, hneg, hno, hn⟩ := h
    exact ⟨hr.trans hru, fun s h' => hneg s ((hra s).mp h'),
      fun s h' => hno s ((hre s).mp h'), hne hno hn⟩
  | scheduledCleared =>
    obtain ⟨hru, hneg, hno, hn, hem⟩ := h
    exact ⟨hr.trans hru, fun s h' => hneg s ((hra s).mp h'),
      fun s h' => hno s ((hre s).mp h'), hne hno hn,
      fun s h' => (hsc s h').elim (hem s) (hno s)⟩

/-! ### One section -/

/-- **What a section may do.** Only a session in negotiation becomes ready, only one that can still be
opened starts to negotiate, and only messages of ready sessions are staged. -/
structure Moves (w w' : World) : Prop where
  evolves : Evolves w w'
  homes : ∀ s r, w'.sessions.lookup s = some r → r.endpoint ∈ w'.endpoints
  owners : ∀ s endpoint, w'.owners.lookup s = some endpoint → Home w' s endpoint
  admitted : ∀ c ∈ w'.calls, c.stage = .admitted → Ready w' c.session
  ready : ∀ s, Ready w' s → Ready w s ∨ Negotiating w s
  range : ∀ s, Negotiating w' s →
    Negotiating w s ∨ w.running = true ∧ Opened w s ∧ ¬Finished w s
  scheduled : ∀ s, Staged w' s → Staged w s ∨ Ready w s
  latest : ∀ s, StagedLatest w' s → StagedLatest w s ∨ Ready w s
  keptScheduled : ∀ s, Staged w' s → Ready w' s ∨ w'.task.discards s .scheduled
  keptLatest : ∀ s, StagedLatest w' s → Ready w' s ∨ w'.task.discards s .realtime
  finished : ∀ s, Finished w' s → Finished w s ∨ Cleaning w' s []
  doing : Doing w' w'.task
  stopped : w'.stopped = true → w.stopped = true ∨ Doing w' .scheduledCleared
  forgotten : ∀ s ∈ w.forgotten, s ∈ w'.forgotten
  returned : w.stopped = true → w'.stopped = true

/-- **Every section keeps the invariant.** -/
theorem Safe.moves (h : Safe b w) (hm : Moves w w') : Safe b w' := by
  have hop : ∀ s, Ready w' s → Opened w s := fun s h' =>
    (hm.ready s h').elim (h.ready s) (h.range s)
  exact {
    forgotten := fun s hs => hm.forgotten s (h.forgotten s hs)
    returned := fun hs => hm.returned (h.returned hs)
    homes := hm.homes
    owners := hm.owners
    admitted := hm.admitted
    ready := fun s h' => hm.evolves.opened (hop s h')
    range := fun s h' => hm.evolves.opened ((hm.range s h').elim (h.range s) (·.2.1))
    scheduled := fun s h' =>
      ⟨hm.evolves.opened ((hm.scheduled s h').elim (fun h' => (h.scheduled s h').1) (h.ready s)),
        hm.keptScheduled s h'⟩
    latest := fun s h' =>
      ⟨hm.evolves.opened ((hm.latest s h').elim (fun h' => (h.latest s h').1) (h.ready s)),
        hm.keptLatest s h'⟩
    finished := by
      intro s hf
      rcases hm.finished s hf with ho | hn
      · have hg := h.finished s ho
        have hnot := hg.range List.not_mem_nil
        refine hg.keep hm.evolves h.homes (fun h' => ?_) (fun h' => ?_) (hm.latest s)
          (hm.scheduled s)
        · exact (hm.ready s h').resolve_right hnot
        · exact (hm.range s h').resolve_right fun hope => hope.2.2 ho
      · exact hn
    doing := hm.doing
    stopped := by
      intro hs
      rcases hm.stopped hs with ho | hn
      · obtain ⟨hr, hne, hno, hnon, he⟩ := h.stopped ho
        refine ⟨hm.evolves.running hr, fun s h' => ?_, fun s h' => ?_, fun s h' => ?_,
          fun s h' => ?_⟩
        · rcases hm.range s h' with h' | ⟨hr', -⟩
          · exact hne s h'
          · rw [hr] at hr'
            cases hr'
        · exact (hm.ready s h').elim (hno s) (hne s)
        · exact (hm.latest s h').elim (hnon s) (hno s)
        · exact (hm.scheduled s h').elim (he s) (hno s)
      · exact hn }

/-- A section of a call without the poll lock, or of the transport. -/
structure Beside (w w' : World) : Prop where
  evolves : Evolves w w'
  homes : ∀ s r, w'.sessions.lookup s = some r → r.endpoint ∈ w'.endpoints
  owners : ∀ s endpoint, w'.owners.lookup s = some endpoint → w.owners.lookup s = some endpoint
  admitted : ∀ c ∈ w'.calls, c.stage = .admitted → Ready w c.session
  running : w'.running = w.running
  task : w'.task = w.task
  ready : ∀ s, Ready w' s ↔ Ready w s
  range : ∀ s, Negotiating w' s ↔ Negotiating w s
  scheduled : ∀ s, Staged w' s → Staged w s ∨ Ready w s
  latest : ∀ s, StagedLatest w' s → StagedLatest w s ∨ Ready w s
  finished : ∀ s, Finished w' s → Finished w s ∨ ¬Opened w s ∧ Barred w' s
  stopped : w'.stopped = w.stopped
  forgotten : ∀ s ∈ w.forgotten, s ∈ w'.forgotten

theorem Beside.moves (hb : Beside w w') (h : Safe b w) : Moves w w' where
  evolves := hb.evolves
  homes := hb.homes
  owners s endpoint ho := hb.evolves.home (h.owners s endpoint (hb.owners s endpoint ho))
  admitted c hc hst := (hb.ready _).mpr (hb.admitted c hc hst)
  ready s h' := .inl ((hb.ready s).mp h')
  range s h' := .inl ((hb.range s).mp h')
  scheduled := hb.scheduled
  latest := hb.latest
  keptScheduled s h' := by
    rw [hb.ready, hb.task]
    exact (hb.scheduled s h').elim (fun h' => (h.scheduled s h').2) .inl
  keptLatest s h' := by
    rw [hb.ready, hb.task]
    exact (hb.latest s h').elim (fun h' => (h.latest s h').2) .inl
  finished s hf := by
    refine (hb.finished s hf).imp_right fun ⟨hn, hba⟩ => ?_
    refine ⟨by decide, hba, fun _ h' => ?_, fun _ h' => ?_, fun _ h' => ?_, fun _ h' => ?_⟩
    · exact hn (h.ready s ((hb.ready s).mp h'))
    · exact hn ((hb.latest s h').elim (fun h' => (h.latest s h').1) (h.ready s))
    · exact hn ((hb.scheduled s h').elim (fun h' => (h.scheduled s h').1) (h.ready s))
    · exact hn (h.range s ((hb.range s).mp h'))
  doing := by
    rw [hb.task]
    exact h.doing.keep hb.evolves h.homes hb.running hb.ready hb.range hb.latest hb.scheduled
      fun s hop hf => (hb.finished s hf).resolve_right fun hne => hne.1 hop
  stopped hs := .inl (hb.stopped ▸ hs)
  forgotten := hb.forgotten
  returned hs := hb.stopped.trans hs

/-! ### The transport and the calls without the poll lock -/

namespace Evolves

variable {w w' : World}

theorem same (hs : w'.sessions = w.sessions) (ht : w'.transports = w.transports)
    (hru : w'.running = w.running)
    (hre : ∀ endpoint, w.task.retired = some endpoint → w'.task.retired = some endpoint) :
    Evolves w w' where
  sessions s r hr := ⟨r, by rw [hs, hr], rfl, .refl _⟩
  shut endpoint _ hsh := hsh.imp (fun h => by rw [ht, h]) (hre endpoint)
  running h := hru.trans h

theorem plain (hp : w.task.plain = true) (hs : w'.sessions = w.sessions)
    (ht : w'.transports = w.transports) (hru : w'.running = w.running) : Evolves w w' :=
  same hs ht hru fun _ he => by
    rw [Task.plain_retired hp] at he
    cases he

theorem route (hr : w.sessions.lookup session = some r) (hm : r.stage.Moves stage)
    (hs : w'.sessions = w.sessions.insert session { r with stage := stage })
    (ht : w'.transports = w.transports) (hru : w'.running = w.running)
    (hre : ∀ endpoint, w.task.retired = some endpoint → w'.task.retired = some endpoint) :
    Evolves w w' where
  sessions s r' hr' := by
    rw [hs, lookup_insert_ite]
    split_ifs with he
    · subst he
      obtain rfl := Option.some.inj (hr.symm.trans hr')
      exact ⟨_, rfl, rfl, hm⟩
    · exact ⟨r', hr', rfl, .refl _⟩
  shut endpoint _ hsh := hsh.imp (fun h => by rw [ht, h]) (hre endpoint)
  running h := hru.trans h

end Evolves

theorem Safe.homes_route (h : Safe b w) (hr : w.sessions.lookup session = some r)
    (stage : RouteStage) (s : Handle) (r' : Session)
    (hr' : (w.sessions.insert session { r with stage := stage }).lookup s = some r') :
    r'.endpoint ∈ w.endpoints := by
  rw [lookup_insert_ite] at hr'
  split_ifs at hr' with he
  · cases hr'
    exact h.homes session r hr
  · exact h.homes s r' hr'

namespace Beside

variable {w : World}

theorem refl (h : Safe b w) : Beside w w where
  evolves := .same rfl rfl rfl fun _ h => h
  homes := h.homes
  owners _ _ h := h
  admitted := h.admitted
  running := rfl
  task := rfl
  ready _ := .rfl
  range _ := .rfl
  scheduled _ := .inl
  latest _ := .inl
  finished _ := .inl
  stopped := rfl
  forgotten _ h := h

variable {endpoint : Handle}

theorem register (h : Safe b w) (hne : endpoint ∉ w.endpoints) :
    Beside w { w with
      endpoints := endpoint :: w.endpoints, transports := w.transports.insert endpoint () } :=
  { refl h with
    evolves := {
      sessions := fun _ r hr => ⟨r, hr, rfl, .refl _⟩
      shut := fun _ he hs => hs.imp_left fun hn =>
        lookup_insert_none hn (ne_of_mem_of_not_mem he hne) ()
      running := id }
    homes := fun s r hr => List.mem_cons_of_mem _ (h.homes s r hr)
    finished := fun _ => .inl }

variable {session : Handle}

variable (h : Safe b w)
include h

theorem issue (hn : w.sessions.lookup session = none) (hk : endpoint ∈ w.endpoints) :
    Beside w { w with sessions := w.sessions.insert session ⟨endpoint, .joining⟩ } :=
  { refl h with
    evolves := {
      sessions := fun s r hr => by
        refine ⟨r, ?_, rfl, .refl _⟩
        rw [lookup_insert_ite, if_neg, hr]
        rintro rfl
        rw [hn] at hr
        cases hr
      shut := fun _ _ hs => hs
      running := id }
    homes := fun s r hr => by
      rw [lookup_insert_ite] at hr
      split_ifs at hr with he
      · cases hr
        exact hk
      · exact h.homes s r hr
    finished := fun _ => .inl }

theorem route (hr : w.sessions.lookup session = some r) (hm : r.stage.Moves stage) :
    Beside w { w with sessions := w.sessions.insert session { r with stage := stage } } :=
  { refl h with
    evolves := .route hr hm rfl rfl rfl fun _ h => h
    homes := h.homes_route hr stage
    finished := fun _ => .inl }

theorem closeRoute (session : Handle) : Beside w (w.closeRoute session) := by
  unfold World.closeRoute
  split
  · exact refl h
  · rename_i r hr
    exact route h hr (.closed _)

theorem call (session : Handle) (item : Item) :
    Beside w { w with calls := w.calls ++ [⟨session, item, .called⟩] } :=
  { refl h with
    evolves := .same rfl rfl rfl fun _ h => h
    admitted := fun c hc hs => by
      rcases List.mem_append.mp hc with hc | hc
      · exact h.admitted c hc hs
      · rw [List.mem_singleton.mp hc] at hs
        cases hs }

theorem stage (index : ℕ) (hs : c.stage = .admitted → Ready w c.session) :
    Beside w { w with calls := w.calls.set index c } :=
  { refl h with
    evolves := .same rfl rfl rfl fun _ h => h
    admitted := fun other ho ha => by
      rcases List.mem_or_eq_of_mem_set ho with hol | rfl
      · exact h.admitted other hol ha
      · exact hs ha }

/-- **A message is staged while its session is ready.** -/
theorem enqueue (hr : Ready w session) (item : Item) : Beside w (w.enqueue session item) := by
  cases item with
  | scheduled m =>
    refine { refl h with
      evolves := .same rfl rfl rfl fun _ h => h
      scheduled := fun s hs => ?_ }
    obtain ⟨m', hm'⟩ := hs
    rcases List.mem_append.mp hm' with hm' | hm'
    · exact .inl ⟨m', hm'⟩
    · cases List.mem_singleton.mp hm'
      exact .inr hr
  | latest key m =>
    refine { refl h with
      evolves := .same rfl rfl rfl fun _ h => h
      latest := fun s hs => ?_ }
    obtain ⟨key', m', hm'⟩ := hs
    change (w.realtime.insert (session, key) m).lookup (s, key') = some m' at hm'
    rw [lookup_insert_ite] at hm'
    split_ifs at hm' with he
    · cases he
      exact .inr hr
    · exact .inl ⟨key', m', hm'⟩

theorem reject (hr : w.sessions.lookup session = some ⟨endpoint, .joining⟩) :
    Beside w { w with
      sessions := w.sessions.insert session ⟨endpoint, .rejected⟩
      rejections := w.rejections.insert session parts } :=
  { refl h with
    evolves := .route hr trivial rfl rfl rfl fun _ h => h
    homes := h.homes_route hr .rejected
    finished := fun s hf => by
      rcases hf with hf | hf
      · exact .inl (.inl hf)
      rw [lookup_insert_ite] at hf
      split_ifs at hf with he
      · subst he
        refine .inr ⟨?_, _, lookup_insert_ite _ _ _ _ |>.trans (if_pos rfl), .inr (.inl rfl)⟩
        rintro ⟨r, hr', hs⟩
        obtain rfl := Option.some.inj (hr.symm.trans hr')
        rcases hs with hs | hs <;> cases hs
      · exact .inl (.inr hf) }

end Beside

/-! ### A table of a cleanup -/

section Parts

variable {w : World} {session s : Handle} {part : Part}

theorem ready_forgetPart : Ready (w.forgetPart session part) s ↔
    Ready w s ∧ ¬(part = .admission ∧ s = session) := by
  cases part <;> simp [World.forgetPart, Ready, and_comm]

theorem negotiating_forgetPart : Negotiating (w.forgetPart session part) s ↔
    Negotiating w s ∧ ¬(part = .range ∧ s = session) := by
  cases part <;> simp [World.forgetPart, Negotiating, and_comm]

theorem staged_forgetPart : Staged (w.forgetPart session part) s ↔
    Staged w s ∧ ¬(part = .scheduled ∧ s = session) := by
  cases part <;> simp [World.forgetPart, Staged]

theorem stagedLatest_forgetPart : StagedLatest (w.forgetPart session part) s ↔
    StagedLatest w s ∧ ¬(part = .realtime ∧ s = session) := by
  cases part <;> simp [World.forgetPart, StagedLatest, lookup_filter, Option.filter_eq_some_iff]

theorem owners_forgetPart (h : (w.forgetPart session part).owners.lookup s = some endpoint) :
    w.owners.lookup s = some endpoint := by
  cases part with
  | owner => exact Sub.erase _ _ _ _ h
  | _ => exact h

end Parts

theorem tail_mem (h : part :: left ∈ parts.tails) : left ∈ parts.tails := by
  rw [List.mem_tails] at h ⊢
  exact (List.suffix_cons part left).trans h

theorem Beside.clean (h : Safe b w)
    (hr : w.rejections.lookup session = some (part :: left)) :
    Beside w { w.forgetPart session part with
      rejections := w.rejections.insert session left } := by
  have hg := h.finished session (.inr (by rw [hr]; rfl))
  have hfi : ∀ s, ((w.rejections.insert session left).lookup s).isSome →
      (w.rejections.lookup s).isSome := by
    intro s hs
    rw [lookup_insert_ite] at hs
    split_ifs at hs with he
    · rw [he, hr]
      rfl
    · exact hs
  have hre : ∀ s, Ready (w.forgetPart session part) s ↔ Ready w s := by
    intro s
    rw [ready_forgetPart, and_iff_left_iff_imp]
    rintro hs ⟨-, rfl⟩
    exact hg.ready List.not_mem_nil hs
  have hra : ∀ s, Negotiating (w.forgetPart session part) s ↔ Negotiating w s := by
    intro s
    rw [negotiating_forgetPart, and_iff_left_iff_imp]
    rintro hs ⟨-, rfl⟩
    exact hg.range List.not_mem_nil hs
  have hsc : ∀ s, Staged (w.forgetPart session part) s → Staged w s ∨ Ready w s :=
    fun s hs => .inl (staged_forgetPart.mp hs).1
  have hl : ∀ s, StagedLatest (w.forgetPart session part) s → StagedLatest w s ∨ Ready w s :=
    fun s hs => .inl (stagedLatest_forgetPart.mp hs).1
  cases part <;> exact {
    evolves := .same rfl rfl rfl fun _ h => h
    homes := h.homes
    owners := fun _ _ ho => owners_forgetPart ho
    admitted := h.admitted
    running := rfl
    task := rfl
    ready := hre
    range := hra
    scheduled := hsc
    latest := hl
    finished := fun s hf => .inl (hf.imp id (hfi s))
    stopped := rfl
    forgotten := fun _ h => h }

/-- **A cleanup goes on.** -/
theorem Cleaning.next {w : World} {session : Handle} {part : Part} {left : List Part}
    (h : Cleaning w session (part :: left)) (after : Option (Handle × List Handle))
    (ht : w.task = .forgetting session (part :: left) after) :
    Cleaning { w.forgetPart session part with task := .forgetting session left after }
      session left := by
  have hb : Barred { w.forgetPart session part with
      task := .forgetting session left after } session := by
    obtain ⟨r, hr, hwh⟩ := h.barred
    rw [Shut, ht] at hwh
    cases part <;> exact ⟨r, hr, hwh⟩
  have hd : ∀ {p}, p ∉ left → part ≠ p → p ∉ part :: left :=
    fun hp hn => List.not_mem_cons_of_ne_of_not_mem hn.symm hp
  have hre : .admission ∉ left → ¬Ready (w.forgetPart session part) session := by
    rw [ready_forgetPart]
    rintro hp ⟨hs, hn⟩
    exact h.ready (hd hp fun he => hn ⟨he, rfl⟩) hs
  have hl : .realtime ∉ left → ¬StagedLatest (w.forgetPart session part) session := by
    rw [stagedLatest_forgetPart]
    rintro hp ⟨hs, hn⟩
    exact h.latest (hd hp fun he => hn ⟨he, rfl⟩) hs
  have hsc : .scheduled ∉ left → ¬Staged (w.forgetPart session part) session := by
    rw [staged_forgetPart]
    rintro hp ⟨hs, hn⟩
    exact h.scheduled (hd hp fun he => hn ⟨he, rfl⟩) hs
  have hra : .range ∉ left → ¬Negotiating (w.forgetPart session part) session := by
    rw [negotiating_forgetPart]
    rintro hp ⟨hs, hn⟩
    exact h.range (hd hp fun he => hn ⟨he, rfl⟩) hs
  exact ⟨tail_mem h.tail, hb, hre, hl, hsc, hra⟩

/-! ### The owner of the poll lock -/

theorem Safe.doing_of (h : Safe b w) (ht : w.task = t) : Doing w t := ht ▸ h.doing

theorem not_admitted (hf : w.free = true) (hc : c ∈ w.calls) : c.stage ≠ .admitted := by
  intro hs
  have hr := List.all_eq_true.mp hf c hc
  rw [hs] at hr
  cases hr

namespace Moves

variable {w : World}

theorem refl (h : Safe b w) : Moves w w := (Beside.refl h).moves h

theorem task (h : Safe b w)
    (hr : ∀ endpoint, w.task.retired = some endpoint → t.retired = some endpoint)
    (hk : ∀ s part, w.task.discards s part → t.discards s part) (hd : Doing { w with task := t } t) :
    Moves w { w with task := t } :=
  { refl h with
    evolves := .same rfl rfl rfl hr
    keptScheduled := fun s hs => (h.scheduled s hs).2.imp_right (hk s _)
    keptLatest := fun s hs => (h.latest s hs).2.imp_right (hk s _)
    finished := fun _ => .inl
    doing := hd
    stopped := .inl }

theorem plain (h : Safe b w) (hp : w.task.plain = true) {t : Task}
    (hdo : Doing { w with task := t } t) : Moves w { w with task := t } :=
  task h (fun endpoint he => by rw [Task.plain_retired hp] at he; cases he)
    (fun s part hd => absurd hd (Task.plain_discards hp s part)) hdo

theorem start (h : Safe b w) {session endpoint : Handle} (ht : w.task = .opening session endpoint) :
    Moves w { w with
      owners := w.owners.insert session endpoint
      negotiations := w.negotiations.insert session ()
      task := .idle } := by
  obtain ⟨hr, ho, hn, hh⟩ := h.doing_of ht
  have hp : w.task.plain = true := by rw [ht]; rfl
  have hi : Moves w { w with task := .idle } := plain h hp trivial
  exact { hi with
    evolves := .plain hp rfl rfl rfl
    owners := fun s e he => by
      rw [lookup_insert_ite] at he
      split_ifs at he with heq
      · cases he
        rw [heq]
        exact hh
      · exact h.owners s e he
    range := fun s hs => by
      change (w.negotiations.insert session ()).lookup s = some () at hs
      rw [lookup_insert_ite] at hs
      split_ifs at hs with heq
      · rw [heq]
        exact .inr ⟨hr, ho, hn⟩
      · exact .inl hs
    finished := fun _ => .inl
    doing := trivial
    stopped := .inl }

variable {session : Handle}

/-- **A session in negotiation becomes ready.** -/
theorem publish (h : Safe b w) (ht : w.task = .publishing session) :
    Moves w { w with ready := w.ready.insert session (), task := .idle } := by
  have hd := h.doing_of ht
  have hp : w.task.plain = true := by rw [ht]; rfl
  have hk : ∀ s, Ready w s → (w.ready.insert session ()).lookup s = some () := by
    intro s hs
    rw [lookup_insert_ite, hs, ite_self]
  have hi : Moves w { w with task := .idle } := plain h hp trivial
  exact { hi with
    evolves := .plain hp rfl rfl rfl
    admitted := fun c hc hst => hk _ (h.admitted c hc hst)
    ready := fun s hs => by
      change (w.ready.insert session ()).lookup s = some () at hs
      rw [lookup_insert_ite] at hs
      split_ifs at hs with heq
      · rw [heq]
        exact .inr hd
      · exact .inl hs
    keptScheduled := fun s hs => .inl (hk s ((h.scheduled s hs).2.resolve_right
      (Task.plain_discards hp s _)))
    keptLatest := fun s hs => .inl (hk s ((h.latest s hs).2.resolve_right
      (Task.plain_discards hp s _)))
    finished := fun _ => .inl
    doing := trivial
    stopped := .inl }

variable {after : Option (Handle × List Handle)}

variable (h : Safe b w)
include h

/-- **One table of a cleanup.** The removal of readiness waits until no send is admitted; the messages
that are left are those the cleanup has still to remove. -/
theorem forget (ht : w.task = .forgetting session (part :: left) after) (hwa : w.waits part = false) :
    Moves w { w.forgetPart session part with task := .forgetting session left after } := by
  obtain ⟨hcl, haf⟩ := h.doing_of ht
  have hnex := hcl.next after ht
  have ho : ∀ {s p}, Ready w s ∨ w.task.discards s p → s ≠ session →
      Ready (w.forgetPart session part) s := by
    intro s p hs hn
    refine ready_forgetPart.mpr ⟨hs.resolve_right fun hd => ?_, fun heq => hn heq.2⟩
    rw [ht] at hd
    exact hn hd.1.symm
  have ha : ∀ c ∈ w.calls, c.stage = .admitted →
      Ready (w.forgetPart session part) c.session := by
    intro c hc hst
    refine ready_forgetPart.mpr ⟨h.admitted c hc hst, ?_⟩
    rintro ⟨rfl, -⟩
    have hf : w.free = true := by simpa [World.waits] using hwa
    exact not_admitted hf hc hst
  have hsc : ∀ s, Staged (w.forgetPart session part) s →
      Ready (w.forgetPart session part) s ∨ session = s ∧ .scheduled ∈ left := by
    intro s hs
    by_cases hn : s = session
    · refine .inr ⟨hn.symm, ?_⟩
      by_contra hdo
      exact hnex.scheduled hdo (hn ▸ hs)
    · exact .inl (ho (h.scheduled s (staged_forgetPart.mp hs).1).2 hn)
  have hl : ∀ s, StagedLatest (w.forgetPart session part) s →
      Ready (w.forgetPart session part) s ∨ session = s ∧ .realtime ∈ left := by
    intro s hs
    by_cases hn : s = session
    · refine .inr ⟨hn.symm, ?_⟩
      by_contra hdo
      exact hnex.latest hdo (hn ▸ hs)
    · exact .inl (ho (h.latest s (stagedLatest_forgetPart.mp hs).1).2 hn)
  have hr : ∀ e, w.task.retired = some e →
      (Task.forgetting session left after).retired = some e := by
    intro e he
    rw [ht] at he
    exact he
  cases part <;> exact {
    evolves := .same rfl rfl rfl hr
    homes := h.homes
    owners := fun s e he => h.owners s e (owners_forgetPart he)
    admitted := ha
    ready := fun s hs => .inl (ready_forgetPart.mp hs).1
    range := fun s hs => .inl (negotiating_forgetPart.mp hs).1
    scheduled := fun s hs => .inl (staged_forgetPart.mp hs).1
    latest := fun s hs => .inl (stagedLatest_forgetPart.mp hs).1
    keptScheduled := hsc
    keptLatest := hl
    finished := fun _ => .inl
    doing := ⟨hnex, haf⟩
    stopped := .inl
    forgotten := fun _ h => h
    returned := id }

/-- **The cleanup returns.** -/
theorem cleaned (ht : w.task = .forgetting session [] after) :
    Moves w { w with forgotten := session :: w.forgotten, task := World.resumed after } := by
  obtain ⟨hc, ha⟩ := h.doing_of ht
  have hr : ∀ e, w.task.retired = some e → (World.resumed after).retired = some e := by
    intro e he
    rw [ht] at he
    cases after with
    | none => cases he
    | some => exact he
  have hev : Evolves w { w with
      forgotten := session :: w.forgotten, task := World.resumed after } :=
    .same rfl rfl rfl hr
  have hk : ∀ {s p}, ¬w.task.discards s p := by
    intro s p hd
    rw [ht] at hd
    exact List.not_mem_nil hd.2
  exact { refl h with
    evolves := hev
    keptScheduled := fun s hs => .inl ((h.scheduled s hs).2.resolve_right hk)
    keptLatest := fun s hs => .inl ((h.latest s hs).2.resolve_right hk)
    finished := fun s hf => by
      rcases hf with hf | hf
      · rcases List.mem_cons.mp hf with rfl | hf
        · exact .inr (hc.keep hev h.homes id id .inl .inl)
        · exact .inl (.inl hf)
      · exact .inl (.inr hf)
    doing := by
      cases after with
      | none => trivial
      | some next => exact ha next.1 next.2 rfl
    stopped := .inl
    forgotten := fun _ => List.mem_cons_of_mem _ }

theorem begin (hr : ∀ e, w.task.retired = some e →
      (Task.forgetting session parts after).retired = some e)
    (hk : ∀ s part, ¬w.task.discards s part)
    (hb : Barred { w with task := .forgetting session parts after } session)
    (ha : ∀ e sessions, after = some (e, sessions) → Homes w e sessions) :
    Moves w { w with task := .forgetting session parts after } :=
  task h hr (fun s part hd => absurd hd (hk s part))
    ⟨⟨by decide, hb, fun hn => absurd (by decide) hn, fun hn => absurd (by decide) hn,
      fun hn => absurd (by decide) hn, fun hn => absurd (by decide) hn⟩, ha⟩

theorem retire (ht : w.task = .retiring endpoint (session :: sessions)) :
    Moves w { w with task := .forgetting session parts (some (endpoint, sessions)) } := by
  have hdo := h.doing_of ht
  obtain ⟨r, hr, hen⟩ := hdo session List.mem_cons_self
  refine begin h (fun e he => ?_) (fun s part hd => ?_) ⟨r, hr, ?_⟩ ?_
  · rw [ht] at he
    exact he
  · rw [ht] at hd
    exact hd
  · exact .inr (.inr (.inr (.inr (congrArg some hen.symm))))
  rintro e l heq s hs
  cases heq
  exact hdo s (List.mem_cons_of_mem _ hs)

theorem retired (ht : w.task = .retiring endpoint []) :
    Moves w { w with transports := w.transports.erase endpoint, task := .idle } := by
  have hk : ∀ {s p}, ¬w.task.discards s p := by
    intro s p hd
    rw [ht] at hd
    exact hd
  exact { refl h with
    evolves := {
      sessions := fun _ r hr => ⟨r, hr, rfl, .refl _⟩
      shut := fun e _ hsh => by
        refine .inl ?_
        rw [lookup_erase_ite]
        split_ifs with he
        · rfl
        refine hsh.resolve_right fun hr => ?_
        rw [ht] at hr
        exact he (Option.some.inj hr).symm
      running := id }
    keptScheduled := fun s hs => .inl ((h.scheduled s hs).2.resolve_right hk)
    keptLatest := fun s hs => .inl ((h.latest s hs).2.resolve_right hk)
    finished := fun _ => .inl
    doing := trivial
    stopped := .inl }

theorem pop (ht : w.task = .idle) (hm : w.scheduled[index]? = some (session, m)) (expired : Bool) :
    Moves w { w with
      scheduled := w.scheduled.eraseIdx index
      task := if expired then .idle else .forwarding session m } := by
  have hp : w.task.plain = true := by rw [ht]; rfl
  have hr := (h.scheduled session ⟨m, List.mem_of_getElem? hm⟩).2.resolve_right
    (Task.plain_discards hp _ _)
  have hst : ∀ s, (∃ m, (s, m) ∈ w.scheduled.eraseIdx index) → Staged w s :=
    fun s ⟨m, hs⟩ => ⟨m, List.mem_of_mem_eraseIdx hs⟩
  have hi : Moves w { w with task := .idle } := plain h hp trivial
  exact { hi with
    evolves := .plain hp rfl rfl rfl
    scheduled := fun s hs => .inl (hst s hs)
    keptScheduled := fun s hs => .inl ((hi.keptScheduled s (hst s hs)).resolve_right id)
    keptLatest := fun s hs => .inl ((hi.keptLatest s hs).resolve_right id)
    finished := fun _ => .inl
    doing := by
      cases expired
      · exact hr
      · trivial
    stopped := .inl }

theorem popLatest (ht : w.task = .idle) (hm : w.realtime.lookup (session, key) = some m) :
    Moves w { w with
      realtime := w.realtime.erase (session, key)
      task := .forwardingLatest session key m } := by
  have hp : w.task.plain = true := by rw [ht]; rfl
  have hr := (h.latest session ⟨key, m, hm⟩).2.resolve_right (Task.plain_discards hp _ _)
  have hst : ∀ s, (∃ key' m', (w.realtime.erase (session, key)).lookup (s, key') = some m') →
      StagedLatest w s :=
    fun s ⟨key', m', hs⟩ => ⟨key', m', Sub.erase _ _ _ _ hs⟩
  have hi : Moves w { w with task := .idle } := plain h hp trivial
  exact { hi with
    evolves := .plain hp rfl rfl rfl
    latest := fun s hs => .inl (hst s hs)
    keptScheduled := fun s hs => .inl ((hi.keptScheduled s hs).resolve_right id)
    keptLatest := fun s hs => .inl ((hi.keptLatest s (hst s hs)).resolve_right id)
    finished := fun _ => .inl
    doing := hr
    stopped := .inl }

theorem clearReady (ht : w.task = .rangeCleared) (hf : w.free = true) :
    Moves w { w with ready := ∅, task := .readyCleared } := by
  have hd := h.doing_of ht
  have hp : w.task.plain = true := by rw [ht]; rfl
  have hn : ∀ s, ¬(∅ : Table Handle Unit).lookup s = some () := nofun
  exact { refl h with
    evolves := .plain hp rfl rfl rfl
    admitted := fun c hc hst => absurd hst (not_admitted hf hc)
    ready := fun s hs => absurd hs (hn s)
    keptScheduled := fun _ _ => .inr trivial
    keptLatest := fun _ _ => .inr trivial
    finished := fun _ => .inl
    doing := ⟨hd.1, hd.2, hn⟩
    stopped := .inl }

theorem clearRealtime (ht : w.task = .readyCleared) :
    Moves w { w with realtime := ∅, task := .realtimeCleared } := by
  have hd := h.doing_of ht
  have hn : ∀ s, ¬∃ key m, (∅ : Table (Handle × UInt64) Outgoing).lookup (s, key) = some m :=
    nofun
  exact { refl h with
    evolves := .same rfl rfl rfl fun e he => by rw [ht] at he; cases he
    latest := fun s hs => absurd hs (hn s)
    keptScheduled := fun _ _ => .inr rfl
    keptLatest := fun s hs => absurd hs (hn s)
    finished := fun _ => .inl
    doing := ⟨hd.1, hd.2.1, hd.2.2, hn⟩
    stopped := .inl }

theorem clearScheduled (ht : w.task = .realtimeCleared) :
    Moves w { w with scheduled := [], task := .scheduledCleared } := by
  obtain ⟨hr, hne, hno, hl⟩ := h.doing_of ht
  have hn : ∀ s, ¬∃ m : Outgoing, (s, m) ∈ ([] : List (Handle × Outgoing)) :=
    fun _ ⟨_, hm⟩ => List.not_mem_nil hm
  exact { refl h with
    evolves := .same rfl rfl rfl fun e he => by rw [ht] at he; cases he
    scheduled := fun s hs => absurd hs (hn s)
    keptScheduled := fun s hs => absurd hs (hn s)
    keptLatest := fun s hs => absurd hs (hl s)
    finished := fun _ => .inl
    doing := ⟨hr, hne, hno, hl, hn⟩
    stopped := .inl }

/-- **A stop returns.** -/
theorem stopped_of_cleared (ht : w.task = .scheduledCleared) :
    Moves w { w with
      transports := ∅, owners := ∅, holder := none, task := .idle, stopped := true } := by
  obtain ⟨hru, hn, hno, hl, hsc⟩ := h.doing_of ht
  exact { refl h with
    evolves := {
      sessions := fun _ r hr => ⟨r, hr, rfl, .refl _⟩
      shut := fun _ _ _ => .inl rfl
      running := id }
    owners := nofun
    keptScheduled := fun s hs => absurd hs (hsc s)
    keptLatest := fun s hs => absurd hs (hl s)
    finished := fun _ => .inl
    doing := trivial
    stopped := fun _ => .inr ⟨hru, hn, hno, hl, hsc⟩
    returned := fun _ => rfl }

theorem clearRange (ht : w.task = .halted) :
    Moves w { w with negotiations := ∅, task := .rangeCleared } := by
  have hd := h.doing_of ht
  have hp : w.task.plain = true := by rw [ht]; rfl
  have hn : ∀ s, ¬(∅ : Table Handle Unit).lookup s = some () := nofun
  have hi : Moves w { w with task := .idle } := plain h hp trivial
  exact { hi with
    evolves := .plain hp rfl rfl rfl
    range := fun s hs => absurd hs (hn s)
    keptScheduled := hi.keptScheduled
    keptLatest := hi.keptLatest
    finished := fun _ => .inl
    doing := ⟨hd, hn⟩
    stopped := .inl }

theorem drain (ht : w.task = .idle) : Moves w { w with running := false, task := .drained } := by
  have hp : w.task.plain = true := by rw [ht]; rfl
  have hi : Moves w { w with task := .idle } := plain h hp trivial
  exact { hi with
    evolves := {
      sessions := fun _ r hr => ⟨r, hr, rfl, .refl _⟩
      shut := fun e _ hs => hs.imp_right fun he => by
        rw [Task.plain_retired hp] at he
        cases he
      running := fun _ => rfl }
    finished := fun _ => .inl
    doing := rfl
    stopped := .inl }

end Moves

/-! ### Every interleaving -/

namespace Safe

variable {w : World}

theorem beside (h : Safe b w) (hb : Beside w w') : Safe b w' := h.moves (hb.moves h)

variable {session : Handle}

theorem not_finished (h : Safe b w) (ht : w.task = .idle) (hr : w.sessions.lookup session = some r)
    (ho : (w.transports.lookup r.endpoint).isSome) (hru : w.running = true)
    (hs : r.stage = .established) : ¬Finished w session := by
  intro hf
  obtain ⟨r', hr', hwh⟩ := (h.finished session hf).barred
  obtain rfl := Option.some.inj (hr.symm.trans hr')
  rw [hs, hru, Shut, ht] at hwh
  rcases hwh with hwh | hwh | hwh | hwh | hwh
  · cases hwh
  · cases hwh
  · cases hwh
  · rw [hwh] at ho
    cases ho
  · cases hwh

theorem advanceSend (h : Safe b w) (hc : w.calls[index]? = some c) (ok : Bool) :
    Safe b (w.advanceSend index c ok) := by
  obtain ⟨session, item, stage⟩ := c
  unfold World.advanceSend World.sendNext
  cases stage with
  | called => cases w.stopping <;> exact h.beside (.stage h index nofun)
  | running =>
    dsimp only
    split <;> exact h.beside (.stage h index nofun)
  | checked => cases ok <;> exact h.beside (.stage h index nofun)
  | valid => exact h.beside (.stage h index nofun)
  | locked =>
    dsimp only
    split
    · exact h.beside (.stage h index nofun)
    rename_i hr
    refine h.beside (.stage h index fun _ => ?_)
    simp only [Bool.or_eq_true, not_or, Option.isNone_iff_eq_none] at hr
    obtain ⟨u, hu⟩ := Option.ne_none_iff_exists'.mp hr.1
    exact hu
  | admitted =>
    have hr : Ready w session := h.admitted _ (List.mem_of_getElem? hc) rfl
    cases ok with
    | false => exact h.beside (.stage h index nofun)
    | true =>
      have hq := h.beside (.enqueue h hr item)
      exact hq.beside (.stage hq index nofun)
  | queued | returned => exact h.beside (.stage h index nofun)

theorem proceed (h : Safe b w) : Safe b w.proceed := by
  unfold World.proceed
  split
  · rename_i session endpoint ht
    exact h.moves (.start h ht)
  · rename_i session ht
    split_ifs
    · exact h.moves (.publish h ht)
    · exact h
  · rename_i session part left after ht
    split_ifs with hwa
    · exact h
    · exact h.moves (.forget h ht (Bool.eq_false_iff.mpr hwa))
  · rename_i session after ht
    exact h.moves (.cleaned h ht)
  · rename_i endpoint session sessions ht
    exact h.moves (.retire h ht)
  · rename_i endpoint ht
    exact h.moves (.retired h ht)
  · rename_i ht
    have hd := h.doing_of ht
    exact h.moves (.plain h (by rw [ht]; rfl) hd)
  · rename_i ht
    exact h.moves (.clearRange h ht)
  · rename_i ht
    split_ifs with hf
    · exact h.moves (.clearReady h ht hf)
    · exact h
  · rename_i ht
    exact h.moves (.clearRealtime h ht)
  · rename_i ht
    exact h.moves (.clearScheduled h ht)
  · rename_i ht
    exact h.moves (.stopped_of_cleared h ht)
  all_goals exact h

/-- The transport answers: the message is staged again while its session is ready, or dropped. -/
theorem answer (h : Safe b w) (hp : w.task.plain = true) (hr : Ready w session) (item : Item)
    (outcome : Outcome) (room : Bool) :
    Safe b (w.answer session item outcome room) := by
  have hi : Safe b { w with task := .idle } := h.moves (.plain h hp trivial)
  have hb : Safe b { w.enqueue session item with task := .idle } := by
    have hq := hi.beside (.enqueue hi hr item)
    cases item <;> exact hq
  cases outcome with
  | accepted | failed => exact hi
  | wouldBlock =>
    cases item with
    | scheduled m => exact hb
    | latest key m =>
      unfold World.answer World.requeue
      dsimp only
      split
      · exact hi
      · exact hb

theorem discard (h : Safe b w) (session : Handle) : Safe b (w.discard session) := by
  have hc := h.beside (.closeRoute h session)
  have hta := (Beside.closeRoute h session).task
  have hb : ∀ t, (w.sessions.lookup session).isNone ≠ true →
      Barred { w.closeRoute session with task := t } session := by
    intro t hs
    unfold World.closeRoute
    split
    · rename_i hn
      rw [hn] at hs
      exact absurd rfl hs
    · exact ⟨_, (lookup_insert_ite _ _ _ _).trans (if_pos rfl), .inl rfl⟩
  unfold World.discard
  split_ifs with hs
  · exact h
  split
  · rename_i ht
    have hp : (w.closeRoute session).task.plain = true := by rw [hta, ht]; rfl
    refine hc.moves (.begin hc (fun e he => ?_) (Task.plain_discards hp)
      (hb _ hs) nofun)
    rw [Task.plain_retired hp] at he
    cases he
  · rename_i endpoint sessions ht
    have hh := hc.doing
    rw [hta, ht] at hh
    refine hc.moves (.begin hc (fun e he => ?_) (fun s part hd => ?_)
      (hb _ hs) ?_)
    · rw [hta, ht] at he
      exact he
    · rw [hta, ht] at hd
      exact hd
    rintro e l heq
    cases heq
    exact hh
  · exact h

theorem idle_of_polling (hp : w.polling = true) : w.task = .idle := by
  rw [World.polling, Bool.and_eq_true, decide_eq_true_eq, decide_eq_true_eq] at hp
  exact hp.2

theorem idle_of_flushing (hf : w.flushing = true) : w.task = .idle := by
  rw [World.flushing, Bool.and_eq_true, decide_eq_true_eq] at hf
  exact hf.2

section

variable (h : Safe b w)
include h

theorem begins (hp : w.polling = true) (hd : Doing { w with task := t } t) :
    Safe b { w with task := t } :=
  h.moves (.plain h (by rw [idle_of_polling hp]; rfl) hd)

theorem cleans (hpo : w.polling = true) (hb : ∀ t, Barred { w with task := t } session) :
    Safe b { w with task := .forgetting session parts none } := by
  have hp : w.task.plain = true := by rw [idle_of_polling hpo]; rfl
  refine h.moves (.begin h (fun e he => ?_) (Task.plain_discards hp) (hb _) nofun)
  rw [Task.plain_retired hp] at he
  cases he

theorem cleaned {session : Handle} (hr : w.rejections.lookup session = some []) :
    Safe b { w with
      rejections := w.rejections.erase session, forgotten := session :: w.forgotten } := by
  refine h.beside { Beside.refl h with
    evolves := .same rfl rfl rfl fun _ h => h
    finished := fun s hf => .inl ?_
    forgotten := fun _ => List.mem_cons_of_mem _ }
  rcases hf with hf | hf
  · rcases List.mem_cons.mp hf with rfl | hf
    · exact .inr (by rw [hr]; rfl)
    · exact .inl hf
  · dsimp only at hf
    rw [lookup_erase_ite] at hf
    split_ifs at hf with he
    · cases hf
    · exact .inr hf

theorem authorize (hp : w.polling = true) (hr : w.sessions.lookup session = some r) :
    Safe b { w with owners := w.owners.insert session r.endpoint } := by
  have ht := idle_of_polling hp
  refine h.moves { Moves.refl h with
    evolves := .same rfl rfl rfl fun _ h => h
    owners := fun s e he => ?_
    finished := fun _ => .inl
    doing := by rw [ht]; trivial
    stopped := .inl }
  rw [lookup_insert_ite] at he
  split_ifs at he with heq
  · cases he
    exact ⟨r, heq ▸ hr, rfl⟩
  · exact h.owners s e he

theorem homes_owned (endpoint : Handle) : Homes w endpoint (w.owned endpoint) := by
  intro s hs
  obtain ⟨entry, he, rfl⟩ := List.mem_map.mp hs
  obtain ⟨hm, heq⟩ := List.mem_filter.mp he
  exact h.owners _ _ (lookup_eq_some_iff.mpr (of_decide_eq_true heq ▸ hm))

theorem barred_of_not_live (hn : Negotiating w session) (hl : w.live session ≠ true) (t : Task) :
    Barred { w with task := t } session := by
  obtain ⟨r, hr, hs⟩ := h.range session hn
  refine ⟨r, hr, ?_⟩
  rcases hs with hs | hs
  · refine .inr (.inr (.inl ?_))
    rw [World.live, hr, Ne, Bool.and_eq_true, not_and'] at hl
    exact Bool.eq_false_iff.mpr (hl (by simp [hs]))
  · exact .inl hs

/-- **Every section of every call keeps the invariant.** -/
theorem step (input : Input) : Safe b (w.step input) := by
  cases input with
  | register endpoint =>
    simp only [World.step]
    split_ifs with hk
    · exact h
    · exact h.beside (.register h hk)
  | issue session endpoint =>
    simp only [World.step]
    split_ifs with hk
    · exact h
    rw [not_or, not_not, Bool.not_eq_true, Option.isSome_eq_false_iff,
      Option.isNone_iff_eq_none] at hk
    exact h.beside (.issue h hk.1 hk.2)
  | establish session =>
    simp only [World.step]
    split
    · rename_i endpoint hr
      exact h.beside (.route h hr trivial)
    · exact h
  | lose session => exact h.beside (.closeRoute h session)
  | call session item => exact h.beside (.call h session item)
  | send index ok =>
    simp only [World.step]
    split
    · exact h
    · rename_i c hc
      exact h.advanceSend hc ok
  | reject session =>
    simp only [World.step]
    split
    · rename_i endpoint hr
      exact h.beside (.reject h hr)
    · exact h
  | clean session =>
    simp only [World.step]
    split
    · exact h
    · rename_i hr
      exact h.cleaned hr
    rename_i part left hr
    split_ifs
    · exact h
    · exact h.beside (.clean h hr)
  | beginStop =>
    exact h.beside { Beside.refl h with
      evolves := .same rfl rfl rfl fun _ h => h
      finished := fun _ => .inl }
  | acquire caller =>
    simp only [World.step]
    split_ifs
    · exact h
    exact h.beside { Beside.refl h with
      evolves := .same rfl rfl rfl fun _ h => h
      finished := fun _ => .inl }
  | release =>
    simp only [World.step]
    split_ifs with ht
    · have hpl : w.task.plain = true := by
        rcases (Bool.or_eq_true _ _).mp ht with ht | ht <;> rw [of_decide_eq_true ht] <;> rfl
      have hi : Safe b { w with task := .idle } := h.moves (.plain h hpl trivial)
      exact hi.beside { Beside.refl hi with
        evolves := .same rfl rfl rfl fun _ h => h
        finished := fun _ => .inl }
    · exact h
  | authorize session =>
    simp only [World.step]
    split
    · exact h
    rename_i r hr
    split_ifs with hp
    · exact h.authorize hp hr
    · exact h
  | convertOpened session =>
    simp only [World.step]
    split
    · exact h
    rename_i r hr
    split_ifs with ho
    · rw [Bool.and_eq_true, Bool.and_eq_true, World.live, Bool.and_eq_true, hr] at ho
      obtain ⟨⟨hp, htr⟩, hru, hs⟩ := ho
      have hs : r.stage = .established := by simpa using hs
      refine h.begins hp ⟨hru, ⟨r, hr, .inl hs⟩, ?_, r, hr, rfl⟩
      exact h.not_finished (idle_of_polling hp) hr htr hru hs
    · exact h
  | negotiated session =>
    simp only [World.step]
    split_ifs with hre hl
    · obtain ⟨hp, hso⟩ := (Bool.and_eq_true _ _).mp hre
      obtain ⟨u, hu⟩ := Option.isSome_iff_exists.mp hso
      exact h.begins hp hu
    · obtain ⟨hp, hso⟩ := (Bool.and_eq_true _ _).mp hre
      obtain ⟨u, hu⟩ := Option.isSome_iff_exists.mp hso
      exact h.cleans hp (h.barred_of_not_live hu hl)
    · exact h
  | convertClosed session =>
    simp only [World.step]
    split
    · rename_i endpoint hr
      split_ifs with hp
      · exact h.cleans hp fun _ => ⟨_, hr, .inl rfl⟩
      · exact h
    · exact h
  | discard session =>
    simp only [World.step]
    split_ifs
    · exact h.discard session
    · exact h
  | retire endpoint =>
    simp only [World.step]
    split_ifs with hp
    · exact h.begins hp (h.homes_owned endpoint)
    · exact h
  | pop index expired =>
    simp only [World.step]
    split
    · exact h
    rename_i session m hm
    by_cases hf : w.flushing = true
    · rw [if_pos hf]
      exact h.moves (.pop h (idle_of_flushing hf) hm expired)
    · rw [if_neg hf]
      exact h
  | popLatest session key =>
    simp only [World.step]
    split
    · exact h
    rename_i m hm
    split_ifs with hf
    · exact h.moves (.popLatest h (idle_of_flushing hf) hm)
    · exact h
  | sent outcome room =>
    simp only [World.step]
    split
    · rename_i session m ht
      exact h.answer (by rw [ht]; rfl) (h.doing_of ht) _ outcome room
    · rename_i session key m ht
      exact h.answer (by rw [ht]; rfl) (h.doing_of ht) _ outcome room
    · exact h
  | drain =>
    simp only [World.step]
    split_ifs with ht
    · exact h.moves (.drain h ht.2)
    · exact h
  | proceed => exact h.proceed

end

theorem initial : Safe .initial .initial where
  forgotten _ h := h
  returned := id
  homes := nofun
  owners := nofun
  admitted := nofun
  ready := nofun
  range := nofun
  scheduled := nofun
  latest := nofun
  finished := nofun
  doing := trivial
  stopped := nofun

end Safe

theorem safe_reach (h : World.machine.Reach (fun _ _ => True) w) : Safe .initial w :=
  h.invariant (I := Safe .initial) (fun w (hw : w = .initial) => hw ▸ .initial)
    (fun _ input hw _ => hw.step input)

theorem Safe.run : ∀ (inputs : List Input) {w : World}, Safe b w →
    Safe b (World.machine.run w inputs)
  | [], _, h => h
  | input :: inputs, _, h => run inputs (h.step input)

/-- **No send resurrects a forgotten session.** Once the cleanup of a session has returned, neither
queue holds a message of it, whatever happens later; once a stop has succeeded, both queues are and
stay empty. -/
theorem no_send_resurrects {w : World} (h : World.machine.Reach (fun _ _ => True) w)
    (inputs : List Input) :
    (∀ s ∈ w.forgotten, (∀ m ∈ (World.machine.run w inputs).scheduled, m.1 ≠ s) ∧
      ∀ key m, (World.machine.run w inputs).realtime.lookup (s, key) ≠ some m) ∧
    (w.stopped = true → (World.machine.run w inputs).scheduled = [] ∧
      ∀ key, (World.machine.run w inputs).realtime.lookup key = none) := by
  have hsa : Safe w (World.machine.run w inputs) :=
    .run inputs { safe_reach h with forgotten := fun _ h => h, returned := id }
  constructor
  · intro s hs
    have hg := hsa.finished s (.inl (hsa.forgotten s hs))
    refine ⟨fun m hm he => ?_, fun key m hm => ?_⟩
    · exact hg.scheduled List.not_mem_nil ⟨m.2, he ▸ hm⟩
    · exact hg.latest List.not_mem_nil ⟨key, m, hm⟩
  · intro hs
    obtain ⟨-, -, -, hla, hsc⟩ := hsa.stopped (hsa.returned hs)
    refine ⟨List.eq_nil_iff_forall_not_mem.mpr fun m hm => hsc m.1 ⟨m.2, hm⟩, fun key => ?_⟩
    exact Option.eq_none_iff_forall_ne_some.mpr fun m hm => hla key.1 ⟨key.2, m, hm⟩

/-- Session 1 becomes ready. One send is admitted and another has passed its checks when a close takes
the poll lock: the removal of readiness waits for the first, and the second is refused. -/
def raced : List Input :=
  [.register 7, .issue 1 7, .establish 1, .acquire .call, .convertOpened 1, .proceed, .negotiated 1,
    .proceed, .release,
    .call 1 (.scheduled ⟨[1], none, none, 0⟩), .call 1 (.latest 5 ⟨[2], none, none, 0⟩),
    .send 0 true, .send 0 true, .send 0 true, .send 0 true, .send 0 true,
    .send 1 true, .send 1 true, .send 1 true,
    .acquire .call, .discard 1, .proceed, .proceed, .send 0 true, .proceed, .send 0 true, .proceed,
    .send 1 true, .send 1 true, .proceed, .proceed, .proceed, .proceed, .release]

def afterwards : List Input :=
  [.call 1 (.scheduled ⟨[3], none, none, 0⟩), .send 2 true, .send 2 true, .beginStop,
    .acquire .stop, .drain, .proceed, .proceed, .proceed, .proceed, .proceed, .proceed]

theorem no_send_resurrects_raced :
    (World.machine.run .initial (raced.take 25)).scheduled = [(1, ⟨[1], none, none, 0⟩)] ∧
      (World.machine.run .initial raced).forgotten = [1] ∧
      (∀ m ∈ (World.machine.run (World.machine.run .initial raced) afterwards).scheduled, m.1 ≠ 1) ∧
      (World.machine.run .initial (raced ++ afterwards)).stopped = true := by
  refine ⟨by decide +kernel, by decide +kernel, ?_, by decide +kernel⟩
  have hr : World.machine.Reach (fun _ _ => True) (World.machine.run .initial raced) :=
    .run_free (fun _ _ => trivial) raced (.start rfl)
  exact ((no_send_resurrects hr afterwards).1 1 (by decide +kernel)).1

end Rnet.Game.SendRaces
