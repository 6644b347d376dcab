import Rnet.Game.Takeover

/-! # A kick against concurrent issue calls

`close_session` holds the poll lock, `issue_resume_ticket` does not take it. Both are cut where they
give up a lock: an issue call looks at readiness, at the owner, registers its ticket, sends it and,
if that fails, takes it back; a close revokes the claims of the session, discards the candidates one
by one, closes the route and forgets the session table by table. Any number of issue calls, one
close at a time and all the other steps of the runtime interleave. -/

namespace Rnet.Game.KickRace

open Rnet.Core Lib.BigEndian Lib.FiniteMap Lib.GuardedRun Join Controls Event Resume
open Resume.ResumeRegistry Game.Runtime Game.Runtime.GameRuntime Cleanup Conversion
open Tickets Takeover

/-! ### The calls cut at their locks -/

inductive IssueStage
  | called
  | ready
  | owned (endpoint : Handle)
  | registered (ticket : Bytes)
  | failed (ticket : Bytes)
  | returned
  deriving DecidableEq

/-- After the registration: a ticket to send, or the end. -/
def IssueStage.ofIssue : Result Bytes → IssueStage
  | .error _ => .returned
  | .ok ticket => .registered ticket

/-- After the send: the end, or a ticket to take back. -/
def IssueStage.ofSend (ticket : Bytes) : Result Unit → IssueStage
  | .error _ => .failed ticket
  | .ok () => .returned

/-- A call that issues a ticket. -/
structure IssueCall where
  session : Handle
  identity : Bytes
  stage : IssueStage
  deriving DecidableEq

def issueStep (g : GameRuntime) (env : Env) (draws : ℕ → Option Nonce) (c : IssueCall) :
    GameRuntime × IssueStage :=
  match c.stage with
  | .called =>
    match ensureGameReady g c.session with
    | .error _ => (g, .returned)
    | .ok () => (g, .ready)
  | .ready =>
    match g.sessionEndpoints.lookup c.session with
    | none => (g, .returned)
    | some endpoint => (g, .owned endpoint)
  | .owned endpoint =>
    match g.resume.serverSessions.lookup c.session with
    | none => (g, .returned)
    | some info =>
      let issued := g.resume.tickets.issue ⟨endpoint, c.session, info.peerKey, info.protocol⟩
        c.identity env.now g.resume.ttl draws
      ({ g with resume := { g.resume with tickets := issued.1 } }, .ofIssue issued.2)
  | .registered ticket =>
    let sent := sendControl env g .resume c.session ticket
    (sent.1, .ofSend ticket sent.2)
  | .failed ticket =>
    ({ g with resume := { g.resume with tickets := g.resume.tickets.revokeTicket ticket } }, .returned)
  | .returned => (g, .returned)

/-- The tables a session is forgotten in, each under its own lock. -/
inductive Part
  | owner | heartbeat | clock | quality | admission | realtime | scheduled | resume | range
  deriving DecidableEq

/-- The order of `forget_ready_session`. -/
def parts : List Part :=
  [.owner, .heartbeat, .clock, .quality, .admission, .realtime, .scheduled, .resume, .range]

def forgetPart (session : Handle) (g : GameRuntime) : Part → GameRuntime
  | .owner => { g with sessionEndpoints := g.sessionEndpoints.erase session }
  | .heartbeat => { g with heartbeatTrackers := g.heartbeatTrackers.erase session }
  | .clock => { g with clockTrackers := g.clockTrackers.erase session }
  | .quality => { g with udpSessions := g.udpSessions.erase session }
  | .admission => { g with admission := g.admission.erase session }
  | .realtime => { g with realtime := filter g.realtime fun key _ => key.1 ≠ session }
  | .scheduled => { g with scheduled := g.scheduled.filter fun m => m.1 ≠ session }
  | .resume => { g with resume := forgetResumeSession g.resume session }
  | .range => { g with range := g.range.forgetSession session }

/-- How far `close_session` has come. -/
inductive CloseStage
  | entered
  | discarding (candidates : List Handle)
  | forgetting (candidate : Handle) (left : List Part) (candidates : List Handle)
  | finishing (left : List Part)
  deriving DecidableEq

/-- A call that closes a session. -/
structure CloseCall where
  session : Handle
  stage : CloseStage
  deriving DecidableEq

def closeStep (g : GameRuntime) (c : CloseCall) : GameRuntime × Option CloseStage :=
  match c.stage with
  | .entered =>
    ({ g with resume := revokeClaims g.resume c.session },
      some (.discarding
        (pendingOf g.resume c.session ++ (g.resume.inflightServer.lookup c.session).toList)))
  | .discarding (candidate :: candidates) =>
    (g.closeRoute candidate .cancelled, some (.forgetting candidate parts candidates))
  | .discarding [] =>
    (g.closeRoute c.session .cancelled,
      match (g.network.closeSession c.session .cancelled).2 with
      | .error _ => none
      | .ok () => some (.finishing parts))
  | .forgetting candidate (part :: left) candidates =>
    (forgetPart candidate g part, some (.forgetting candidate left candidates))
  | .forgetting _ [] candidates => (g, some (.discarding candidates))
  | .finishing (part :: left) => (forgetPart c.session g part, some (.finishing left))
  | .finishing [] => (g, none)

/-! ### Alone, the cut calls are the calls -/

theorem forget_parts (g : GameRuntime) (session : Handle) :
    parts.foldl (forgetPart session) g = g.forgetReadySession session := rfl

/-- A close from one stage to the end, when nothing comes between. -/
inductive Closed (session : Handle) : GameRuntime → CloseStage → GameRuntime → Prop
  | last {g g' : GameRuntime} {stage : CloseStage} (h : closeStep g ⟨session, stage⟩ = (g', none)) :
      Closed session g stage g'
  | more {g g₁ g' : GameRuntime} {stage next : CloseStage}
      (h : closeStep g ⟨session, stage⟩ = (g₁, some next)) (hrest : Closed session g₁ next g') :
      Closed session g stage g'

theorem closed_finishing (session : Handle) : ∀ (left : List Part) (g : GameRuntime),
    Closed session g (.finishing left) (left.foldl (forgetPart session) g)
  | [], _ => .last rfl
  | _ :: left, _ => .more rfl (closed_finishing session left _)

theorem closed_forgetting {session candidate : Handle} {candidates : List Handle}
    {g' : GameRuntime} : ∀ left g,
    Closed session (left.foldl (forgetPart candidate) g) (.discarding candidates) g' →
      Closed session g (.forgetting candidate left candidates) g'
  | [], _, h => .more rfl h
  | _ :: left, _, h => .more rfl (closed_forgetting left _ h)

theorem closed_discarding {session : Handle} {g' : GameRuntime} : ∀ (candidates : List Handle)
    (g : GameRuntime), Closed session
      (candidates.foldl (fun g new => g.discard new .cancelled) g) (.discarding []) g' →
      Closed session g (.discarding candidates) g'
  | [], _, h => h
  | candidate :: candidates, g, h => by
    refine .more rfl (closed_forgetting parts _ ?_)
    rw [forget_parts]
    exact closed_discarding candidates _ h

/-- **An undisturbed close is `close_session`.** -/
theorem closed_closeSession (g : GameRuntime) (session : Handle) :
    Closed session g .entered (g.closeSession session).1 := by
  refine .more rfl (closed_discarding _ _ ?_)
  change Closed session (g.revokeResumeSession session) (.discarding []) _
  unfold GameRuntime.closeSession
  dsimp only
  split
  · rename_i network e hr
    refine .last ?_
    simp only [closeStep, closeRoute, hr]
  · rename_i network hr
    refine .more ?_ (forget_parts { g.revokeResumeSession session with network := network } session ▸
      closed_finishing session parts _)
    simp only [closeStep, closeRoute, hr]

/-- An issue call from one stage to the end, when nothing comes between. -/
inductive Issued (env : Env) (draws : ℕ → Option Nonce) (session : Handle) (identity : Bytes) :
    GameRuntime → IssueStage → GameRuntime → Prop
  | last (g : GameRuntime) : Issued env draws session identity g .returned g
  | more {g g₁ g' : GameRuntime} {stage next : IssueStage}
      (h : issueStep g env draws ⟨session, identity, stage⟩ = (g₁, next))
      (hrest : Issued env draws session identity g₁ next g') :
      Issued env draws session identity g stage g'

/-- **An undisturbed issue call is `issue_resume_ticket`.** -/
theorem issued_issueResumeTicket (g : GameRuntime) (env : Env) (draws : ℕ → Option Nonce)
    (session : Handle) (identity : Bytes) : Issued env draws session identity g .called
      (g.issueResumeTicket env draws session identity).1 := by
  unfold issueResumeTicket
  split
  · rename_i e hr
    exact .more (by simp only [issueStep, hr]) (.last g)
  rename_i hr
  have hc : issueStep g env draws ⟨session, identity, .called⟩ = (g, .ready) := by
    simp only [issueStep, hr]
  refine .more hc ?_
  split
  · rename_i hn
    exact .more (by simp only [issueStep, hn]) (.last g)
  rename_i endpoint how
  have ho : issueStep g env draws ⟨session, identity, .ready⟩ = (g, .owned endpoint) := by
    simp only [issueStep, how]
  refine .more ho ?_
  split
  · rename_i hn
    exact .more (by simp only [issueStep, hn]) (.last g)
  rename_i info hin
  dsimp only
  generalize hi : g.resume.tickets.issue ⟨endpoint, session, info.peerKey, info.protocol⟩
    identity env.now g.resume.ttl draws = issued
  have hre : issueStep g env draws ⟨session, identity, .owned endpoint⟩ =
      ({ g with resume := { g.resume with tickets := issued.1 } }, .ofIssue issued.2) := by
    simp only [issueStep, hin, hi]
  refine .more hre ?_
  split
  · rename_i e he
    rw [he]
    exact .last _
  · rename_i ticket ht
    rw [ht]
    dsimp only [IssueStage.ofIssue]
    split
    · rename_i hok
      exact .more (by simp only [issueStep, hok, IssueStage.ofSend]) (.last _)
    rename_i e he
    have hf : issueStep { g with resume := { g.resume with tickets := issued.1 } } env draws
        ⟨session, identity, .registered ticket⟩ = ((sendControl env
          { g with resume := { g.resume with tickets := issued.1 } } .resume session
          ticket).1, .failed ticket) := by
      simp only [issueStep, he, IssueStage.ofSend]
    exact .more hf (.more rfl (.last _))

/-! ### The race -/

/-- A runtime with a close and issue calls in progress. `revoked` are the sessions whose close has
passed the revocation, `closed` those whose close has returned. -/
structure Race where
  runtime : GameRuntime
  close : Option CloseCall
  issues : List IssueCall
  revoked : List Handle
  closed : List Handle

/-- Steps of the threads. -/
inductive RaceInput
  | call (session : Handle) (identity : Bytes)
  | issue (index : ℕ) (env : Env) (draws : ℕ → Option Nonce)
  | kick (session : Handle)
  | close
  | other (input : Input)

namespace Race

/-- Calls that wait: those with steps of their own, and those that take the poll lock. -/
def waits (k : Race) : Input → Bool
  | .issueResumeTicket _ _ _ _ | .closeSession _ => true
  | .poll _ | .closeEndpoint _ | .stop | .flush _ _ _ | .flushLatest _ _ _ => k.close.isSome
  | _ => false

def advanceClose (k : Race) (c : CloseCall) : Race :=
  let stepped := closeStep k.runtime c
  { k with
    runtime := stepped.1
    close := stepped.2.map fun stage => { c with stage := stage }
    revoked := if c.stage = .entered then c.session :: k.revoked else k.revoked
    closed := if stepped.2.isNone then c.session :: k.closed else k.closed }

def advanceIssue (k : Race) (index : ℕ) (env : Env) (draws : ℕ → Option Nonce) (c : IssueCall) :
    Race :=
  let stepped := issueStep k.runtime env draws c
  { k with
    runtime := stepped.1
    issues := k.issues.set index { c with stage := stepped.2 } }

def step (k : Race) : RaceInput → Race
  | .call session identity => { k with issues := k.issues ++ [⟨session, identity, .called⟩] }
  | .issue index env draws =>
    match k.issues[index]? with
    | none => k
    | some c => k.advanceIssue index env draws c
  | .kick session =>
    if k.runtime.poll.isSome || k.close.isSome then k
    else { k with close := some ⟨session, .entered⟩ }
  | .close =>
    match k.close with
    | none => k
    | some c => k.advanceClose c
  | .other input => if k.waits input then k else { k with runtime := GameRuntime.step k.runtime input }

def machine : Machine Race RaceInput where
  init k := GameRuntime.machine.init k.runtime ∧ k.close = none ∧ k.issues = [] ∧ k.revoked = [] ∧
    k.closed = []
  step := step

/-- The registration that is next for an issue call falls into the window of a close: the tickets of
the session were revoked and its route is still there. -/
def inWindow (k : Race) (c : IssueCall) : Bool :=
  match c.stage with
  | .owned _ =>
    k.revoked.contains c.session && (k.runtime.network.shared.sessions.lookup c.session).isSome
  | _ => false

/-- Registered sessions are closed, and no ticket is registered in the window of a close. -/
def orderly (k : Race) : RaceInput → Bool
  | .kick session => session < k.runtime.network.shared.nextSession
  | .issue index _ _ => (k.issues[index]?).all fun c => !k.inWindow c
  | _ => true

end Race

/-! ### What is left of the tickets of a kicked session -/

/-- An issue call that still has to send its ticket or to take it back. -/
def Holding (c : IssueCall) (nonce : Nonce) : Prop :=
  ∃ tag : Tag, c.stage = .registered (nonce.bytes ++ tag.bytes) ∨
    c.stage = .failed (nonce.bytes ++ tag.bytes)

/-- **Tickets of a session that was revoked** are in the hands of issue calls that cannot send them.
-/
structure Safe (k : Race) : Prop where
  coherent : Coherent k.runtime.resume.tickets
  known : ∀ s ∈ k.revoked, s < k.runtime.network.shared.nextSession
  held : ∀ s ∈ k.revoked, ∀ nonce entry, k.runtime.resume.tickets.entries.lookup nonce = some entry →
    entry.oldSession = s → Gone s k.runtime.network ∧ ∃ c ∈ k.issues, c.session = s ∧ Holding c nonce
  closing : ∀ c, k.close = some c → c.session < k.runtime.network.shared.nextSession ∧
    (c.stage ≠ .entered → c.session ∈ k.revoked)
  closed : ∀ s ∈ k.closed, s ∈ k.revoked

theorem mem_set {l : List IssueCall} {index : ℕ} {c c' other : IssueCall}
    (hi : l[index]? = some c) (ho : other ∈ l) (hn : other ≠ c) : other ∈ l.set index c' := by
  obtain ⟨j, hj⟩ := List.mem_iff_getElem?.mp ho
  refine List.mem_iff_getElem?.mpr ⟨j, ?_⟩
  rw [List.getElem?_set_ne, hj]
  rintro rfl
  rw [hi] at hj
  exact hn (Option.some.inj hj).symm

theorem mem_set_self {l : List IssueCall} {index : ℕ} {c : IssueCall} (c' : IssueCall)
    (hi : l[index]? = some c) : c' ∈ l.set index c' := by
  have hl : index < l.length := by
    by_contra hg
    rw [List.getElem?_eq_none (Nat.not_lt.mp hg)] at hi
    cases hi
  exact List.mem_iff_getElem?.mpr ⟨index, List.getElem?_set_self hl⟩

namespace Safe

variable {k : Race}

theorem loses (h : Safe k)
    (ht : Loses k.runtime.resume.tickets g.resume.tickets)
    (hr : Descends k.runtime.network g.network)
    (hi : ∀ s ∈ k.revoked, ∀ nonce entry, g.resume.tickets.entries.lookup nonce = some entry →
      entry.oldSession = s → ∀ c ∈ k.issues, c.session = s → Holding c nonce →
      ∃ c ∈ issues, c.session = s ∧ Holding c nonce) :
    Safe { k with runtime := g, issues := issues } where
  coherent := ht.coherent h.coherent
  known s hs := Nat.lt_of_lt_of_le (h.known s hs) hr.nextSession_le
  held s hs nonce entry he ho := by
    obtain ⟨hg, c, hc, hse, hh⟩ := h.held s hs nonce entry
      (ht.entries nonce entry he) ho
    exact ⟨hg.descends hr, hi s hs nonce entry he ho c hc hse hh⟩
  closing c hc :=
    ⟨Nat.lt_of_lt_of_le (h.closing c hc).1 hr.nextSession_le, (h.closing c hc).2⟩
  closed := h.closed

theorem other (h : Safe k) (hwa : k.waits input = false) :
    Safe { k with runtime := GameRuntime.step k.runtime input } := by
  have hn : issuesNothing input = true := by
    cases input <;> first | rfl | cases hwa
  exact h.loses (loses_step _ hn) (descends_step _ _)
    fun s _ nonce _ _ _ c hc hs hh => ⟨c, hc, hs, hh⟩

theorem advance (h : Safe k) {index : ℕ} {c : IssueCall} (hi : k.issues[index]? = some c)
    (hf : ∀ nonce, ¬Holding c nonce) (g : GameRuntime)
    (ht : Loses k.runtime.resume.tickets g.resume.tickets)
    (hr : Descends k.runtime.network g.network) (c' : IssueCall) :
    Safe { k with runtime := g, issues := k.issues.set index c' } := by
  refine h.loses ht hr fun s _ nonce _ _ _ other ho hs hh => ?_
  refine ⟨other, mem_set hi ho ?_, hs, hh⟩
  rintro rfl
  exact hf nonce hh

/-- A registration outside the window: the new ticket belongs to its call, which cannot send it when
the session was revoked. -/
theorem register (h : Safe k) {index : ℕ} {session endpoint : Handle} {identity : Bytes}
    (hi : k.issues[index]? = some ⟨session, identity, .owned endpoint⟩)
    (hwi : k.inWindow ⟨session, identity, .owned endpoint⟩ = false) {tickets : ResumeRegistry}
    {nonce : Nonce} {tag : Tag} {entry : TicketEntry}
    (ht : Loses k.runtime.resume.tickets tickets)
    (hfr : tickets.entries.lookup nonce = none) (ho : entry.oldSession = session)
    (hwit : Without tickets session) :
    Safe { k with
      runtime := { k.runtime with resume := { k.runtime.resume with
        tickets := tickets.register nonce entry } }
      issues := k.issues.set index ⟨session, identity, .registered (nonce.bytes ++ tag.bytes)⟩ } where
  coherent := coherent_register (ht.coherent h.coherent) hfr (ho ▸ hwit)
  known := h.known
  held s hs other found hf hse := by
    change (tickets.entries.insert nonce entry).lookup other = some found at hf
    rw [lookup_insert_ite] at hf
    split_ifs at hf with he
    · cases hf
      obtain rfl : s = session := hse.symm.trans ho
      refine ⟨⟨?_, h.known s hs⟩, _, mem_set_self _ hi, rfl, tag, .inl (by rw [he])⟩
      simp only [Race.inWindow, List.contains_iff_mem.mpr hs, Bool.true_and] at hwi
      exact Option.not_isSome_iff_eq_none.mp (Bool.not_eq_true _ ▸ hwi)
    · obtain ⟨hg, c, hc, hcs, hh⟩ := h.held s hs other found
        (ht.entries other found hf) hse
      refine ⟨hg, c, mem_set hi hc ?_, hcs, hh⟩
      rintro rfl
      obtain ⟨tag', hst | hst⟩ := hh <;> cases hst
  closing := h.closing
  closed := h.closed

theorem issue (h : Safe k) {index : ℕ} {c : IssueCall} (hi : k.issues[index]? = some c)
    (hwin : k.inWindow c = false) (env : Env) (draws : ℕ → Option Nonce) :
    Safe (k.advanceIssue index env draws c) := by
  obtain ⟨session, identity, stage⟩ := c
  have hsa : (∀ nonce, ¬Holding ⟨session, identity, stage⟩ nonce) → ∀ c',
      Safe { k with issues := k.issues.set index c' } :=
    fun hf c' => h.advance hi hf k.runtime (.refl _) (.refl _) c'
  unfold Race.advanceIssue
  cases stage with
  | called =>
    have hf : ∀ nonce, ¬Holding ⟨session, identity, .called⟩ nonce := by
      rintro nonce ⟨tag, hst | hst⟩ <;> cases hst
    simp only [issueStep]
    split
    · exact hsa hf _
    · exact hsa hf _
  | ready =>
    have hf : ∀ nonce, ¬Holding ⟨session, identity, .ready⟩ nonce := by
      rintro nonce ⟨tag, hst | hst⟩ <;> cases hst
    simp only [issueStep]
    split
    · exact hsa hf _
    · exact hsa hf _
  | owned endpoint =>
    have hf : ∀ nonce, ¬Holding ⟨session, identity, .owned endpoint⟩ nonce := by
      rintro nonce ⟨tag, hst | hst⟩ <;> cases hst
    simp only [issueStep]
    split
    · exact hsa hf _
    rename_i info hin
    rcases issue_frame k.runtime.resume.tickets ⟨endpoint, session, info.peerKey, info.protocol⟩
      identity env.now k.runtime.resume.ttl draws with ⟨e, her, hl⟩ |
      ⟨nonce, tag, entry, tickets, hl, ho, hwi, hfr, hr, hti⟩
    · simp only [her]
      exact h.advance hi hf { k.runtime with resume := { k.runtime.resume with
        tickets := (k.runtime.resume.tickets.issue
          ⟨endpoint, session, info.peerKey, info.protocol⟩ identity env.now k.runtime.resume.ttl
          draws).1 } } hl (.refl _) _
    · simp only [hti, hr]
      exact h.register hi hwin hl hfr ho (hwi h.coherent)
  | registered ticket =>
    have hsen := sent_sendControl env k.runtime .resume session ticket
    simp only [issueStep]
    generalize (sendControl env k.runtime .resume session ticket).1 = g at hsen ⊢
    generalize (sendControl env k.runtime .resume session ticket).2 = result at hsen ⊢
    have hro := descends_sent hsen
    have ht : g.resume.tickets = k.runtime.resume.tickets := by rw [hsen.core]
    refine h.loses (by rw [ht]; exact .refl _) hro ?_
    intro s hs nonce entry he ho c hc hcs hh
    by_cases hse : c = ⟨session, identity, .registered ticket⟩
    · -- The call of the ticket itself: it cannot be sent, so it is going to be taken back.
      have hg := (h.held s hs nonce entry (ht ▸ he) ho).1
      rw [hse] at hcs hh
      cases hsen with
      | refused e =>
        obtain ⟨tag, hst | hst⟩ := hh
        · cases hst
          exact ⟨_, mem_set_self _ hi, hcs, tag, .inr rfl⟩
        · cases hst
      | admitted _ hli =>
        obtain rfl : session = s := hcs
        exact absurd hli hg.not_live
    · exact ⟨c, mem_set hi hc hse, hcs, hh⟩
  | failed ticket =>
    simp only [issueStep]
    refine h.loses (loses_revokeTicket _ _) (.refl _) ?_
    intro s hs nonce entry he ho c hc hcs hh
    by_cases hse : c = ⟨session, identity, .failed ticket⟩
    · rw [hse] at hh
      obtain ⟨tag, hst | hst⟩ := hh
      · cases hst
      cases hst
      change (k.runtime.resume.tickets.revokeTicket (nonce.bytes ++ tag.bytes)).entries.lookup nonce =
        some entry at he
      rw [revokeTicket_append, lookup_remove, if_pos rfl] at he
      cases he
    · exact ⟨c, mem_set hi hc hse, hcs, hh⟩
  | returned =>
    have hf : ∀ nonce, ¬Holding ⟨session, identity, .returned⟩ nonce := by
      rintro nonce ⟨tag, hst | hst⟩ <;> cases hst
    exact hsa hf _

theorem closes (h : Safe k) (hc : k.close = some c) (hst : c.stage ≠ .entered)
    (g : GameRuntime) (ht : g.resume.tickets = k.runtime.resume.tickets)
    (hr : Descends k.runtime.network g.network) (next : Option CloseStage) :
    Safe { k with
      runtime := g
      close := next.map fun stage => { c with stage := stage }
      closed := if next.isNone then c.session :: k.closed else k.closed } where
  coherent := ht ▸ h.coherent
  known s hs := Nat.lt_of_lt_of_le (h.known s hs) hr.nextSession_le
  held s hs nonce entry he ho := by
    obtain ⟨hg, hh⟩ := h.held s hs nonce entry (ht ▸ he) ho
    exact ⟨hg.descends hr, hh⟩
  closing c' hc' := by
    obtain ⟨stage, -, rfl⟩ := Option.map_eq_some_iff.mp hc'
    exact ⟨Nat.lt_of_lt_of_le (h.closing c hc).1 hr.nextSession_le,
      fun _ => (h.closing c hc).2 hst⟩
  closed s hs := by
    split_ifs at hs
    · rcases List.mem_cons.mp hs with rfl | hs
      · exact (h.closing c hc).2 hst
      · exact h.closed s hs
    · exact h.closed s hs

theorem forgetPart_frame (session : Handle) (g : GameRuntime) (part : Part) :
    (forgetPart session g part).resume.tickets = g.resume.tickets ∧
      (forgetPart session g part).network = g.network := by
  cases part <;> exact ⟨rfl, rfl⟩

theorem close (h : Safe k) (hc : k.close = some c) : Safe (k.advanceClose c) := by
  obtain ⟨session, stage⟩ := c
  have hr : ∀ s, Descends k.runtime.network (k.runtime.closeRoute s .cancelled).network :=
    fun s => descends_sheds (sheds_closeRoute _ _ _)
  have hp : ∀ s part, Descends k.runtime.network (forgetPart s k.runtime part).network := by
    intro s part
    rw [(forgetPart_frame s k.runtime part).2]
    exact .refl _
  match stage, hc with
  | .entered, hc =>
    -- The revocation: nothing of the session is left, and the others only lose.
    have hl := loses_revokeSession k.runtime.resume.tickets session
    exact {
      coherent := hl.coherent h.coherent
      known := by
        intro s hs
        rcases List.mem_cons.mp hs with rfl | hs
        · exact (h.closing _ hc).1
        · exact h.known s hs
      held := by
        intro s hs nonce entry he ho
        rcases List.mem_cons.mp hs with rfl | hs
        · exact absurd ho (without_revokeSession h.coherent _ nonce entry he)
        · exact h.held s hs nonce entry (hl.entries nonce entry he) ho
      closing := by
        intro c' hc'
        cases hc'
        exact ⟨(h.closing _ hc).1, fun _ => List.mem_cons_self⟩
      closed := fun s hs => List.mem_cons_of_mem _ (h.closed s hs) }
  | .discarding (candidate :: candidates), hc =>
    exact h.closes hc nofun (k.runtime.closeRoute candidate .cancelled) rfl (hr candidate) _
  | .discarding [], hc =>
    exact h.closes hc nofun (k.runtime.closeRoute session .cancelled) rfl (hr session) _
  | .forgetting candidate (part :: left) candidates, hc =>
    exact h.closes hc nofun (forgetPart candidate k.runtime part)
      (forgetPart_frame candidate k.runtime part).1 (hp candidate part) _
  | .forgetting _ [] candidates, hc => exact h.closes hc nofun k.runtime rfl (.refl _) _
  | .finishing (part :: left), hc =>
    exact h.closes hc nofun (forgetPart session k.runtime part)
      (forgetPart_frame session k.runtime part).1 (hp session part) _
  | .finishing [], hc => exact h.closes hc nofun k.runtime rfl (.refl _) _

/-- **Every orderly step of a race keeps it.** -/
theorem step (h : Safe k) (hg : k.orderly input = true) : Safe (k.step input) := by
  cases input with
  | call session identity =>
    refine { h with held := ?_ }
    intro s hs nonce entry he ho
    obtain ⟨hgo, c, hc, hh⟩ := h.held s hs nonce entry he ho
    exact ⟨hgo, c, List.mem_append_left _ hc, hh⟩
  | issue index env draws =>
    simp only [Race.step]
    split
    · exact h
    rename_i c hi
    simp only [Race.orderly, hi, Option.all_some, Bool.not_eq_true'] at hg
    exact h.issue hi hg env draws
  | kick session =>
    simp only [Race.step]
    split_ifs
    · exact h
    refine { h with closing := fun c hc => ?_ }
    cases hc
    exact ⟨of_decide_eq_true hg, fun hn => absurd rfl hn⟩
  | close =>
    simp only [Race.step]
    split
    · exact h
    · rename_i c hcl
      exact h.close hcl
  | other input =>
    simp only [Race.step]
    split_ifs with hwa
    · exact h
    · exact h.other (Bool.not_eq_true _ ▸ hwa)

end Safe

theorem safe_reach (h : Race.machine.Reach (fun k input => k.orderly input = true) k) : Safe k := by
  refine h.invariant ?_ fun k input hk hg => hk.step hg
  rintro k ⟨⟨config, clockRoom, ttl, maxResumeTickets, sign, hb⟩, hclo, hi, hr, hcl⟩
  have hc : Coherent k.runtime.resume.tickets := by
    rw [build_spec hb]
    exact coherent_empty sign maxResumeTickets
  refine ⟨hc, ?_, ?_, ?_, ?_⟩
  · rw [hr]
    exact nofun
  · rw [hr]
    exact nofun
  · rw [hclo]
    exact nofun
  · rw [hcl]
    exact nofun

def Unredeemable (r : ResumeRegistry) (session : Handle) : Prop :=
  ∀ ticket endpoint peerKey protocol now claim,
    (r.consume ticket endpoint peerKey protocol now).2 = .ok claim → claim.oldSession ≠ session

/-- **No ticket survives an orderly kick**: in every race in which no ticket is registered between the
revocation and the end of the route, once the close of a session and the issue calls for it have
returned, no ticket of the session can be redeemed. -/
theorem no_ticket_survives_kick {k : Race}
    (hk : Race.machine.Reach (fun k input => k.orderly input = true) k) {old : Handle}
    (hcl : old ∈ k.closed) (hre : ∀ c ∈ k.issues, c.session = old → c.stage = .returned) :
    Unredeemable k.runtime.resume.tickets old := by
  have hsa := safe_reach hk
  intro ticket endpoint peerKey protocol now claim hr heq
  obtain ⟨nonce, entry, he, ho, -⟩ :=
    (consume_cases k.runtime.resume.tickets ticket endpoint peerKey protocol now).2 claim hr
  obtain ⟨-, c, hc, hse, tag, hs⟩ :=
    hsa.held old (hsa.closed old hcl) nonce entry he (ho.trans heq)
  rw [hre c hc hse] at hs
  rcases hs with hs | hs <;> cases hs

def newRace : Race := ⟨newServer, none, [], [], []⟩

theorem init_newRace : Race.machine.init newRace := ⟨init_newServer, rfl, rfl, rfl, rfl⟩

/-- The session becomes ready and an issue call for it passes its first two checks. -/
def raceStart : List RaceInput :=
  readied.map .other ++ [.call 1 [9], .issue 0 calm fun _ => some (sampleNonce 3),
    .issue 0 calm fun _ => some (sampleNonce 3)]

/-- The issue call registers its ticket and sends it or takes it back. -/
def raceIssue : List RaceInput :=
  List.replicate 3 (.issue 0 calm fun _ => some (sampleNonce 3))

/-- The rest of a close without candidates. -/
def raceClose : List RaceInput := List.replicate 12 .close

/-- The ticket is registered when the close has removed the route. -/
def raceLate : List RaceInput :=
  raceStart ++ [.kick 1, .close, .close, .issue 0 calm fun _ => some (sampleNonce 3)]

/-- A ticket that is registered after the end of the route can be redeemed for a moment; it cannot be
sent and is taken back. -/
theorem no_ticket_survives_kick_late :
    ((Race.machine.run newRace raceLate).runtime.resume.tickets.consume (sampleTicket 3) 1
        samplePeerKey ⟨7, 2⟩ 1000).2 = .ok ⟨1, [9]⟩ ∧
      Unredeemable (Race.machine.run newRace (raceLate ++ raceIssue ++ raceClose)
        ).runtime.resume.tickets 1 :=
  ⟨by decide +kernel, no_ticket_survives_kick
    (Machine.reach_run _ (.start init_newRace) (by decide +kernel)) (by decide +kernel)
    (by decide +kernel)⟩

/-- **A ticket survives a kick**: it is registered and sent between the revocation and the close of
the route. Both calls have returned, and the ticket is redeemed for the kicked session. -/
theorem ticket_survives_kick :
    (Race.machine.run newRace (raceStart ++ [.kick 1, .close] ++ raceIssue ++ raceClose)).closed =
        [1] ∧
      (Race.machine.run newRace (raceStart ++ [.kick 1, .close] ++ raceIssue ++ raceClose)).issues =
        [⟨1, [9], .returned⟩] ∧
      ((Race.machine.run newRace (raceStart ++ [.kick 1, .close] ++ raceIssue ++ raceClose)
        ).runtime.resume.tickets.consume (sampleTicket 3) 1 samplePeerKey ⟨7, 2⟩ 1000).2 =
          .ok ⟨1, [9]⟩ := by
  decide +kernel

end Rnet.Game.KickRace
