import Rnet.Game.Steps

/-! # Tickets over whole runs

The registry of tickets keeps its indices in agreement whatever the runtime does, so in every run a
ticket is good for exactly what its entry says. From that follows what a failed `issue_resume_ticket`
leaves behind: reissuing replaces the ticket of the session before the new one is sent, and taking the
new one back does not bring the old one back. The tickets are the same after a failure exactly when
the request was refused before it replaced a ticket that was still good. -/

namespace Rnet.Game.Tickets

open Rnet.Core Lib.BigEndian Lib.FiniteMap Lib.GuardedRun
open Transport.Config (RuntimeConfig)
open Envelope (ControlKind envelopeBytes)
open Join Controls Event Resume Resume.ResumeRegistry Game.Runtime Game.Runtime.GameRuntime
open Conversion Steps

/-! ### The indices agree in every run -/

def anything (_ : GameRuntime) (_ : Input) : Prop := True

variable {g g' : GameRuntime} {session : Handle}

theorem coherent_issues (h : Issues g session g' r) (hg : Coherent g.resume.tickets) :
    Coherent g'.resume.tickets := by
  cases h with
  | refused e ht => exact ht.coherent hg
  | sent ht hf ho hwi hse hs =>
    rw [hs.core]
    exact coherent_register (ht.coherent hg) hf (ho ▸ hwi hg)
  | undone e ht hf ho hwi =>
    exact (loses_remove _ _).coherent
      (coherent_register (ht.coherent hg) hf (ho ▸ hwi hg))

theorem loses_publishes {endpoint : Handle} (h : Publishes g endpoint session old serverResume g' r) :
    Loses g.resume.tickets g'.resume.tickets := by
  cases h with
  | lost hs => exact hs.tickets
  | broken => exact .refl _
  | announced _ _ hs => exact hs.tickets

theorem tickets_takeClaim (r : ResumeRuntimeState) (endpoint session : Handle) :
    (takeClaim r endpoint session).1.tickets = r.tickets := by
  unfold takeClaim
  split <;> rfl

/-- **A conversion adds no ticket.** -/
theorem loses_converts (h : Converts env g event g' r) :
    Loses g.resume.tickets g'.resume.tickets := by
  have hta : Loses g.resume.tickets (takeClaim g.resume event.endpoint event.session).1.tickets := by
    rw [tickets_takeClaim]
    exact .refl _
  cases h with
  | shed hsh => exact hsh.tickets
  | rejected _ ht | registered _ _ _ ht => exact ht
  | unexpected => exact hta
  | opened _ _ _ _ _ hs =>
    rw [hs.core]
    exact hta
  | joined => exact hta
  | answered _ _ hs | selected _ _ hs | confirmed _ _ hs =>
    rw [hs.core]
    exact .refl _
  | serverCompleted _ _ _ _ _ hs hp =>
    have hl := loses_publishes hp
    rw [hs.core] at hl
    exact hl
  | clientCompleted _ _ _ _ _ hp =>
    have hl := loses_publishes hp
    exact hl
  | buffered | passed => exact .refl _

def issuesNothing : Input → Bool
  | .issueResumeTicket _ _ _ _ => false
  | _ => true

theorem loses_keeps (r : ResumeRegistry) :
    TableKeeps (fun _ input => issuesNothing input = true) fun g => Loses r g.resume.tickets where
  shed h hs := h.trans hs.tickets
  sent h _ hs := by
    rw [hs.core]
    exact h
  rescheduled _ h := h
  repeated h _ _ hs := by
    rw [hs.core]
    exact h
  listened h _ _ := h
  connected h _ _ := h
  decided h _ := h
  issued _ hg _ := nomatch hg
  scheduled h _ _ := h
  latest h _ _ := h
  flushed h hf := by
    rw [hf.core]
    exact h
  ended h _ := h
  stopped h := h.trans (loses_clear _)
  accepted h _ := h
  joined h _ := h
  established h _ := h
  delivered h _ := h
  announced h := h
  lost h _ := h
  same h hs := by
    rw [hs.core]
    exact h
  converted h _ _ _ hc := by
    have hl := loses_converts hc
    exact h.trans hl

/-- **Only issuing adds a ticket.** -/
theorem loses_step (g : GameRuntime) (h : issuesNothing input = true) :
    Loses g.resume.tickets (GameRuntime.step g input).resume.tickets :=
  (loses_keeps g.resume.tickets).keeps.step (.refl _) h

theorem coherent_step (h : Coherent g.resume.tickets) (input : Input) :
    Coherent (GameRuntime.step g input).resume.tickets := by
  by_cases hi : issuesNothing input = true
  · exact (loses_step g hi).coherent h
  cases input with
  | issueResumeTicket env draws session identity =>
    exact coherent_issues (issues_issueResumeTicket g env draws session identity) h
  | _ => exact absurd rfl hi

theorem build_spec {sign : Nonce → Tag}
    (h : build config clockRoom ttl maxResumeTickets sign = .ok g) :
    g = { network := .initial config, endpointTransports := ∅, sessionEndpoints := ∅
          udpSessions := ∅, heartbeatTrackers := ∅, clockTrackers := ∅, admission := ∅
          scheduled := [], realtime := ∅
          resume := ⟨⟨sign, maxResumeTickets, ∅, ∅, ∅⟩, ∅, ∅, ∅, ∅, ∅, ttl⟩
          range := .withBufferLimits config.eventQueueCapacity config.maxEventBytes
          poll := none, returned := [], published := [], redeemed := ∅ } := by
  unfold build at h
  split_ifs at h
  split at h
  · cases h
  · cases h
  · cases h
  rename_i tickets _ hn _
  unfold ResumeRegistry.new at hn
  split_ifs at hn
  cases hn
  cases h
  rfl

/-- **In every run the indices of the registry agree.** -/
theorem coherent_reach (h : machine.Reach anything g) : Coherent g.resume.tickets := by
  refine Machine.Reach.invariant (I := fun g => Coherent g.resume.tickets) ?_
    (fun g input hg _ => coherent_step hg input) h
  rintro g ⟨config, clockRoom, ttl, maxResumeTickets, sign, hb⟩
  rw [build_spec hb]
  exact coherent_empty sign maxResumeTickets

/-! ### What a failed request leaves -/

/-- From now on exactly the same tickets are redeemed, for the same claims. -/
def SameTickets (now : Instant) (r r' : ResumeRegistry) : Prop :=
  ∀ ticket endpoint peerKey protocol at' claim, now ≤ at' →
    ((r.consume ticket endpoint peerKey protocol at').2 = .ok claim ↔
      (r'.consume ticket endpoint peerKey protocol at').2 = .ok claim)

theorem sameTickets_of (h : Coherent r) (h' : Coherent r') (hs : r'.sign = r.sign)
    (hen : ∀ nonce entry, now < entry.expires → (r.entries.lookup nonce = some entry ↔
      r'.entries.lookup nonce = some entry)) : SameTickets now r r' := by
  intro ticket endpoint peerKey protocol at' claim hat
  rw [consume_eq_ok h, consume_eq_ok h']
  refine exists_congr fun nonce => exists_congr fun entry => ?_
  constructor
  · rintro ⟨ha, h₁, h₂, h₃, h₄, he, hc⟩
    obtain ⟨hl, hn, ht, hent⟩ := authentic_eq_ok.mp ha
    rw [← hs] at ht
    have hk := (hen nonce entry (Nat.lt_of_le_of_lt hat he)).mp hent
    exact ⟨authentic_eq_ok.mpr ⟨hl, hn, ht, hk⟩, h₁, h₂, h₃, h₄, he, hc⟩
  · rintro ⟨ha, h₁, h₂, h₃, h₄, he, hc⟩
    obtain ⟨hl, hn, ht, hent⟩ := authentic_eq_ok.mp ha
    rw [hs] at ht
    have hk := (hen nonce entry (Nat.lt_of_le_of_lt hat he)).mpr hent
    exact ⟨authentic_eq_ok.mpr ⟨hl, hn, ht, hk⟩, h₁, h₂, h₃, h₄, he, hc⟩

variable {nonce : Nonce} {entry : TicketEntry}

theorem authentic_append {r : ResumeRegistry} (h : r.entries.lookup nonce = some entry) :
    r.authentic (nonce.bytes ++ (r.sign nonce).bytes) = .ok (nonce, entry) := by
  refine authentic_eq_ok.mpr ⟨?_, ?_, ?_, h⟩
  · rw [List.length_append, nonce.length_eq, (r.sign nonce).length_eq]
    rfl
  · exact (Nonce.read_append [] _ nonce).symm
  · exact List.drop_left' nonce.length_eq

theorem not_sameTickets (h : Coherent r) (h' : Coherent r')
    (hen : r.entries.lookup nonce = some entry) (he : now < entry.expires)
    (hg : r'.entries.lookup nonce = none) : ¬SameTickets now r r' := by
  intro hs
  have hb := (consume_eq_ok h (nonce.bytes ++ (r.sign nonce).bytes) entry.endpoint entry.peerKey
    ⟨entry.protocolId, entry.protocolVersion⟩ now ⟨entry.oldSession, entry.identity⟩).mpr
      ⟨nonce, entry, authentic_append hen, rfl, rfl, rfl, rfl, he, rfl⟩
  have ha := (hs _ _ _ _ now _ (Nat.le_refl now)).mp hb
  obtain ⟨found, entry', hau, -⟩ := (consume_eq_ok h' _ _ _ _ _ _).mp ha
  obtain ⟨-, hn, -, hf⟩ := authentic_eq_ok.mp hau
  have hr : Nonce.read (nonce.bytes ++ (r.sign nonce).bytes) 0 = nonce := Nonce.read_append [] _ _
  rw [hn, hr, hg] at hf
  cases hf

/-- The request passes every check in front of the registration of a ticket, the storage apart. -/
structure Registers (g : GameRuntime) (now : Instant) (draws : ℕ → Option Nonce) (session : Handle)
    (identity : Bytes) : Prop where
  ready : (g.admission.lookup session).isSome
  valid : ∃ endpoint info, g.sessionEndpoints.lookup session = some endpoint ∧
    g.resume.serverSessions.lookup session = some info ∧
    Valid ⟨endpoint, session, info.peerKey, info.protocol⟩ identity g.resume.ttl
  drawn : Draws (g.resume.tickets.prune now) draws

/-- What a failed request did to the registry: it was refused first, or it replaced the ticket of the
session and took the new one back. -/
theorem issue_error_cases (he : (g.issueResumeTicket env draws session identity).2 = .error e) :
    (¬(Registers g env.now draws session identity ∧
      ((g.resume.tickets.prune env.now).bySession.lookup session).isSome) ∧
      ((g.issueResumeTicket env draws session identity).1.resume.tickets = g.resume.tickets ∨
      (g.issueResumeTicket env draws session identity).1.resume.tickets =
      g.resume.tickets.prune env.now)) ∨ Registers g env.now draws session identity ∧ ∃ nonce entry,
      (g.resume.tickets.prune env.now).entries.lookup nonce = none ∧
      (g.issueResumeTicket env draws session identity).1.resume.tickets =
      (((g.resume.tickets.prune env.now).revokeSession session).register nonce entry).remove nonce ∧
      entry.oldSession = session := by
  unfold issueResumeTicket at he ⊢
  split at he
  · rename_i hr
    refine .inl ⟨fun h => ?_, .inl rfl⟩
    unfold ensureGameReady at hr
    rw [if_pos h.1.ready] at hr
    cases hr
  · rename_i hr
    split at he
    · rename_i hn
      refine .inl ⟨fun h => ?_, .inl rfl⟩
      obtain ⟨endpoint, -, ho, -⟩ := h.1.valid
      rw [hn] at ho
      cases ho
    · rename_i endpoint ho
      split at he
      · rename_i hn
        refine .inl ⟨fun h => ?_, .inl rfl⟩
        obtain ⟨-, info, -, hi, -⟩ := h.1.valid
        rw [hn] at hi
        cases hi
      · rename_i info hi
        rcases issue_cases g.resume.tickets ⟨endpoint, session, info.peerKey, info.protocol⟩ identity
          env.now g.resume.ttl draws with ⟨e', hre, hti⟩ |
          ⟨nonce, hv, hno, hreg, ht⟩
        · simp only [hre]
          refine .inl ⟨fun h => ?_, hti⟩
          obtain ⟨endpoint', info', ho', hi', hv⟩ := h.1.valid
          rw [ho] at ho'
          rw [hi] at hi'
          cases ho'
          cases hi'
          obtain ⟨ticket, ht⟩ := issue_registers hv h.1.drawn h.2
          rw [ht] at hre
          cases hre
        · have hd := (newNonce_iff _ _).mp ⟨nonce, hno⟩
          refine .inr ⟨⟨admission_of_ensureGameReady hr, ⟨endpoint, info, ho, hi, hv⟩,
            hd⟩, nonce, entryFor ⟨endpoint, session, info.peerKey, info.protocol⟩ identity
              (env.now + g.resume.ttl), newNonce_fresh hno, ?_, rfl⟩
          simp only [ht, hreg] at he ⊢
          have hs := sent_sendControl env { g with resume := { g.resume with
              tickets := ((g.resume.tickets.prune env.now).revokeSession session).register nonce
                (entryFor ⟨endpoint, session, info.peerKey, info.protocol⟩ identity
                  (env.now + g.resume.ttl)) } }
            .resume session (nonce.bytes ++ ((g.resume.tickets.prune env.now).sign nonce).bytes)
          split at he
          · cases he
          · rw [hs.core]
            exact revokeTicket_append _ _ _

/-- **When a failed request is without effect**: exactly when it did not get as far as to replace a
ticket of its session that was still good. -/
theorem issue_error_keeps_tickets_iff {g : GameRuntime} (hg : machine.Reach anything g) {env : Env}
    {draws : ℕ → Option Nonce} {session : Handle} {identity : Bytes} {e : RnetError}
    (her : (g.issueResumeTicket env draws session identity).2 = .error e) :
    SameTickets env.now g.resume.tickets
        (g.issueResumeTicket env draws session identity).1.resume.tickets ↔
      ¬(Registers g env.now draws session identity ∧ Holds g.resume.tickets session env.now) := by
  have hc := coherent_reach hg
  have ha := coherent_issues (issues_issueResumeTicket g env draws session identity) hc
  have hp := loses_prune g.resume.tickets env.now
  have hs := spares_prune hc env.now
  have hi : Holds g.resume.tickets session env.now →
      ((g.resume.tickets.prune env.now).bySession.lookup session).isSome := by
    rintro ⟨nonce, entry, hen, rfl, he⟩
    have hk := hs nonce entry hen he
    rw [(hp.coherent hc).linked.indexed nonce entry hk]
    rfl
  rcases issue_error_cases her with ⟨href, ht⟩ |
    ⟨hre, nonce, entry, hfr, ht, hol⟩
  · refine iff_of_true ?_ fun h => href ⟨h.1, hi h.2⟩
    rcases ht with ht | ht
    · rw [ht]
      exact fun _ _ _ _ _ _ _ => Iff.rfl
    rw [ht]
    refine sameTickets_of hc (hp.coherent hc) hp.sign ?_
    exact fun n found he => ⟨fun h => hs n found h he, hp.entries n found⟩
  · -- The registry without the tickets of the session: the new one is gone again.
    have hr := loses_revokeSession (g.resume.tickets.prune env.now) session
    have hl : ∀ n found, (g.issueResumeTicket env draws session
        identity).1.resume.tickets.entries.lookup
        n = some found ↔ (g.resume.tickets.prune env.now).entries.lookup n = some found ∧
          found.oldSession ≠ session := by
      intro n found
      rw [ht, lookup_remove_register (hr.entries.lookup_none hfr)]
      exact lookup_revokeSession (hp.coherent hc) session n found
    have hsi : (g.issueResumeTicket env draws session identity).1.resume.tickets.sign =
        g.resume.tickets.sign := by
      rw [ht, (loses_remove _ _).sign]
      exact hr.sign.trans hp.sign
    constructor
    · rintro hsa ⟨-, n, found, hf, hse, he⟩
      refine not_sameTickets hc ha hf he ?_ hsa
      rcases hlo : (g.issueResumeTicket env draws session identity).1.resume.tickets.entries.lookup
        n with - | other
      · rfl
      obtain ⟨ho, hne⟩ := (hl n other).mp hlo
      rw [hs n found hf he] at ho
      cases ho
      exact absurd hse hne
    · intro hn
      refine sameTickets_of hc ha hsi fun n found he => ?_
      rw [hl]
      constructor
      · intro hf
        refine ⟨hs n found hf he, fun hse => hn ⟨hre, ?_⟩⟩
        exact ⟨n, found, hf, hse, he⟩
      · exact fun h => hp.entries n found h.1

/-! ### A server with sessions -/

def sampleSign (nonce : Nonce) : Tag := ⟨nonce.bytes ++ nonce.bytes, by simp [nonce.length_eq]⟩

def newServer : GameRuntime where
  network := .initial .production
  endpointTransports := ∅
  sessionEndpoints := ∅
  udpSessions := ∅
  heartbeatTrackers := ∅
  clockTrackers := ∅
  admission := ∅
  scheduled := []
  realtime := ∅
  resume := ⟨⟨sampleSign, 16, ∅, ∅, ∅⟩, ∅, ∅, ∅, ∅, ∅, 60000⟩
  range := .withBufferLimits RuntimeConfig.production.eventQueueCapacity
    RuntimeConfig.production.maxEventBytes
  poll := none
  returned := []
  published := []
  redeemed := ∅

theorem init_newServer : machine.init newServer :=
  ⟨.production, 10000000, 60000, 16, sampleSign, rfl⟩

def calm : Env where
  now := 1000
  channel _ := ⟨⟨0, 0⟩, .room⟩
  vanishes := false
  decisionExpired := false
  probeAdmitted := true
  qualityChanged := false
  heartbeats := []
  clockProbes := []
  clockTimes := (0, 0)
  timedOut := true

def jammed : Env := { calm with channel := fun _ => ⟨⟨0, 0⟩, .full⟩ }

def sampleProtocol : GameProtocol := ⟨7, 1, 2, 0, 0⟩

def sampleNonce (b : UInt8) : Nonce := ⟨List.replicate 16 b, List.length_replicate⟩

/-- The ticket that is issued with a nonce. -/
def sampleTicket (b : UInt8) : Bytes := (sampleNonce b).bytes ++ (sampleSign (sampleNonce b)).bytes

def samplePeerKey : Bytes := List.replicate 32 5

def polling : List Input := .poll 8 :: List.replicate 8 (.advance calm)

/-- A client joins as `session`, with or without a ticket, and the application accepts it. -/
def joining (session : Handle) (nonce : Nonce) (ticket : Option Bytes) : List Input :=
  .accept 1 ⟨.v4 1, 9⟩ samplePeerKey (joinBytes ⟨sampleProtocol, nonce, [], ticket⟩) true :: polling ++
    [.authDecide session true false, .establish session true] ++ polling

def acknowledging (session : Handle) (nonce : Nonce) : List Input :=
  .deliver session (.gameControl (envelopeBytes ControlKind.protocol.toByte 0 0 0 none
    (selectionPayload ⟨Controls.ack, nonce, 7, 2, session⟩))) true :: polling

/-- A session receives one byte of the application. -/
def receiving (session : Handle) (b : UInt8) : Input :=
  .deliver session (.message 0 (envelopeBytes Envelope.application 0 0 0 none [b]) true) true

def readied : List Input :=
  .listen .tcp sampleProtocol (.ok ()) :: joining 1 (sampleNonce 1) none ++
    acknowledging 1 (sampleNonce 1)

def ticketed : List Input :=
  readied ++ [.issueResumeTicket calm (fun _ => some (sampleNonce 3)) 1 [9]]

theorem reach_sample (inputs : List Input) : machine.Reach anything (machine.run newServer inputs) :=
  .run_free (fun _ _ => trivial) inputs (.start init_newServer)

/-- The first ticket of a session cannot be sent: nothing changes. -/
theorem issue_error_keeps_tickets_iff_first :
    SameTickets 1000 (machine.run newServer readied).resume.tickets
      ((machine.run newServer readied).issueResumeTicket jammed (fun _ => some (sampleNonce 3)) 1
        [9]).1.resume.tickets := by
  have her : ((machine.run newServer readied).issueResumeTicket jammed
      (fun _ => some (sampleNonce 3)) 1 [9]).2 =
        .error ⟨.wouldBlock, "session write queue is full"⟩ := by decide +kernel
  refine (issue_error_keeps_tickets_iff (reach_sample readied) her).mpr ?_
  rintro ⟨-, nonce, entry, hen, -⟩
  have he : size (machine.run newServer readied).resume.tickets.entries = 0 := by decide +kernel
  exact absurd (List.length_pos_of_mem (lookup_eq_some_iff.mp hen)) (Nat.not_lt.mpr he.le)

/-- **A failed reissue loses the session's ticket**: the queue of the session is full when a second
ticket is issued; the call fails and the first ticket, which was good before, is not any more. -/
theorem failed_reissue_loses_ticket :
    ((machine.run newServer ticketed).issueResumeTicket jammed (fun _ => some (sampleNonce 4)) 1
        [9]).2 = .error ⟨.wouldBlock, "session write queue is full"⟩ ∧
      ((machine.run newServer ticketed).resume.tickets.consume
        ((sampleNonce 3).bytes ++ (sampleSign (sampleNonce 3)).bytes) 1 samplePeerKey ⟨7, 2⟩ 1000).2 =
          .ok ⟨1, [9]⟩ ∧
      (((machine.run newServer ticketed).issueResumeTicket jammed (fun _ => some (sampleNonce 4)) 1
        [9]).1.resume.tickets.consume ((sampleNonce 3).bytes ++ (sampleSign (sampleNonce 3)).bytes) 1
          samplePeerKey ⟨7, 2⟩ 1000).2 = .error invalidTicket := by
  decide +kernel

end Rnet.Game.Tickets
