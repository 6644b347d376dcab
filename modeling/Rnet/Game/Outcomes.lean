import Rnet.Game.Tickets

/-! # What a converted event becomes

A transport event becomes at most one public event. It names the session of the transport event, or no
session, and the bytes it is charged with are not more than the transport event carried: data, join
tickets and resume tickets are parts of it. Only a resumption replaces bytes: the identity behind a
ticket takes the place of the ticket, the peer's key and the header of the join, which are longer. -/

namespace Rnet.Game.Outcomes

open Rnet.Core Lib.BigEndian Lib.FiniteMap
open Envelope (decode DecodedEnvelope length_of_decode)
open Join Controls Event RangeState Resume Game.Runtime Game.Runtime.GameRuntime Conversion
open Tickets

def sessionOf : GameEvent → Option Handle
  | .runtimeStarted | .runtimeStopped | .endpointOpened _ | .endpointError _ _ => none
  | .authRequest _ session _ _ _ _ | .resumeRequest _ session _ _ _ _ _ _
  | .protocolRejected _ session _ | .sessionReady _ session | .sessionResumed _ _ session
  | .resumeTicket _ session _ | .sessionClosed _ session _ | .writable _ session
  | .joinFailed _ session _ | .securityChanged _ session _ _ _ | .qualityChanged _ session
  | .protocolViolation _ session => some session
  | .message m => some m.session

/-- Every identity behind a ticket is short. -/
def Short (tickets : ResumeRegistry) : Prop :=
  ∀ nonce entry, tickets.entries.lookup nonce = some entry → entry.identity.length ≤ maxIdentityLen

structure Reports (tickets : ResumeRegistry) (event : Core.Event) (e : GameEvent) : Prop where
  session : ∀ s ∈ sessionOf e, s = event.session
  size : Short tickets → e.payloadBytes ≤ event.data.length

/-- What becomes public of a result is such an event. -/
def Reported (tickets : ResumeRegistry) (event : Core.Event) (r : Result (Option GameEvent)) : Prop :=
  ∀ e, r = .ok (some e) → Reports tickets event e

section Handlers

variable (env : Env) (g : GameRuntime) (event : Core.Event)

variable {tickets : ResumeRegistry}

theorem reports_of_free {event : Core.Event} {e : GameEvent}
    (hs : ∀ s ∈ sessionOf e, s = event.session) (hsi : e.payloadBytes = 0) :
    Reports tickets event e :=
  ⟨hs, fun _ => hsi.trans_le (Nat.zero_le _)⟩

theorem reported_error {event : Core.Event} (e : RnetError) :
    Reported tickets event (.error e) := nofun

theorem reported_none {event : Core.Event} : Reported tickets event (.ok none) := nofun

theorem reported_some {event : Core.Event} {e : GameEvent} (h : Reports tickets event e) :
    Reported tickets event (.ok (some e)) := by
  rintro e' ⟨⟩
  exact h

theorem reported_tolerate {event : Core.Event} (sent : Result Unit) :
    Reported tickets event (sent.map fun _ => none) := by
  intro e he
  rcases sent with e' | u <;> cases he

theorem reported_publishes {g g' : GameRuntime} {event : Core.Event}
    (h : Publishes g event.endpoint event.session old serverResume g' r) :
    Reported tickets event r := by
  cases h with
  | lost => exact reported_none
  | broken => exact reported_error _
  | announced =>
    refine reported_some (reports_of_free ?_ ?_)
    · intro s hs
      rcases old with - | o <;> cases hs <;> rfl
    · rcases old with - | o <;> rfl

section Controls

variable (state : RangeSession) (control : Selection)

theorem reported_acceptSelect :
    Reported g.resume.tickets event (acceptSelect env g event.session state control).2 := by
  unfold acceptSelect
  split_ifs
  · exact reported_error _
  · exact reported_tolerate _

theorem reported_acceptAck : Reported g.resume.tickets event
    (acceptAck env g event.endpoint event.session state control).2 := by
  unfold acceptAck
  split
  · exact reported_error _
  dsimp only
  split
  · split
    · exact reported_none
    · exact reported_error _
  · split
    · exact reported_none
    · exact reported_publishes (publishes_publishRangeReady _ _ _ _ _ _)

theorem reported_acceptReady : Reported g.resume.tickets event
    (acceptReady env g event.endpoint event.session state control).2 := by
  unfold acceptReady
  split_ifs
  · exact reported_error _
  · exact reported_publishes (publishes_publishRangeReady _ _ _ _ _ _)

theorem reported_negotiate : Reported g.resume.tickets event
    (negotiate env g event.endpoint event.session state control).2 := by
  have hs := reported_acceptSelect env g event state control
  have ha := reported_acceptAck env g event state control
  have hr := reported_acceptReady env g event state control
  unfold negotiate
  dsimp only
  split
  · split_ifs
    · exact hs
    · exact reported_error _
  · split_ifs
    · exact hs
    · exact hr
    · exact reported_error _
  · split_ifs
    · exact reported_none
    · exact reported_error _
  · split_ifs
    · exact ha
    · exact reported_error _
  · split_ifs
    · exact ha
    · exact reported_error _
  · exact reported_error _

end Controls

theorem reported_handleRangeControl (payload : Bytes) :
    Reported g.resume.tickets event (handleRangeControl env g event payload).2 := by
  unfold handleRangeControl
  split_ifs
  · exact reported_error _
  dsimp only
  split
  · exact reported_error _
  split_ifs
  · exact reported_error _
  · exact reported_error _
  · exact reported_negotiate env g event _ _

theorem reported_handleHeartbeatEvent (payload : Bytes) :
    Reported g.resume.tickets event (handleHeartbeatEvent env g event payload).2 := by
  unfold handleHeartbeatEvent
  split
  · exact reported_error _
  split
  · exact reported_none
  split
  · split
    · exact reported_none
    split
    · exact reported_error _
    · exact reported_none
  · split_ifs
    · refine reported_some (reports_of_free ?_ rfl)
      rintro s ⟨⟩
      rfl
    · exact reported_none

theorem reported_handleClockSyncEvent (payload : Bytes) :
    Reported g.resume.tickets event (handleClockSyncEvent env g event payload).2 := by
  unfold handleClockSyncEvent
  split
  · exact reported_none
  split
  · exact reported_error _
  split
  · exact reported_none
  dsimp only
  split
  · split_ifs
    · exact reported_error _
    · exact reported_none
    split
    · exact reported_error _
    · exact reported_none
  · split_ifs
    · exact reported_none
    · exact reported_error _

theorem reported_handleGameControlEvent :
    Reported g.resume.tickets event (handleGameControlEvent env g event).2 := by
  unfold handleGameControlEvent
  split
  · exact reported_error _
  · exact reported_handleHeartbeatEvent env g event _
  · exact reported_handleClockSyncEvent env g event _
  · rename_i payload hd
    have hl := length_of_decode hd
    unfold handleResumeTicket
    split_ifs
    · exact reported_error _
    split
    · exact reported_none
    refine reported_some ⟨?_, fun _ => hl⟩
    rintro s ⟨⟩
    rfl
  · exact reported_handleRangeControl env g event _
  · exact reported_error _

theorem decodeBusinessMessage_spec {g : GameRuntime} {event : Core.Event} {m : GameMessage}
    (h : decodeBusinessMessage g event = .ok m) :
    m.session = event.session ∧ m.payload.length ≤ event.data.length := by
  unfold decodeBusinessMessage at h
  split_ifs at h
  split at h
  · cases h
  · cases h
  rename_i hd
  split at h
  · cases h
  · cases h
    exact ⟨rfl, length_of_decode hd⟩

theorem reported_convertBusinessEvent :
    Reported g.resume.tickets event (convertBusinessEvent g event).2 := by
  unfold convertBusinessEvent
  split
  · split_ifs
    · exact reported_error _
    · exact reported_none
  · rename_i m hd
    obtain ⟨hs, hl⟩ := decodeBusinessMessage_spec hd
    have hm : Reported g.resume.tickets event (.ok (some (.message m))) := by
      refine reported_some ⟨?_, fun _ => hl⟩
      rintro s ⟨⟩
      exact hs
    unfold RangeRuntimeState.bufferMessage
    split
    · exact hm
    dsimp only
    split_ifs
    · exact hm
    · exact reported_error _
    · exact reported_error _
    · exact reported_error _
    · exact reported_error _
    · exact reported_error _
    · exact reported_none

theorem identity_of_redeem {endpoint : Handle}
    (h : (redeem tickets ticket endpoint peerKey client server now).2 = .ok (version, claim)) :
    ticket.length = ticketLen ∧
      ∃ nonce entry, tickets.entries.lookup nonce = some entry ∧ claim.identity = entry.identity := by
  have hp := loses_pinnedVersion tickets ticket endpoint peerKey client.protocolId now
  unfold redeem at h
  split at h
  · cases h
  rename_i t pinned hr
  rw [hr] at hp
  split_ifs at h
  split at h
  · cases h
  rename_i t' claimed hc
  cases h
  unfold ResumeRegistry.consume at hc
  dsimp only at hc
  split at hc
  · cases hc
  rename_i nonce entry ha
  obtain ⟨hl, -, -, he⟩ := ResumeRegistry.authentic_eq_ok.mp ha
  split at hc
  · cases hc
  obtain ⟨-, hcl⟩ := Prod.mk.inj hc
  cases hcl
  exact ⟨hl, nonce, entry,
    hp.entries _ _ ((ResumeRegistry.loses_prune _ _).entries _ _ he), rfl⟩

theorem reports_registerCandidate (hlo : 32 ≤ event.data.length)
    (hj : decodeRange (event.data.drop 32) = .ok join) (peerKey : Bytes) (version : UInt32)
    (claim : Option ResumeClaim)
    (hc : ∀ c ∈ claim, ∃ ticket, join.resumeTicket = some ticket ∧ ticket.length = ticketLen ∧
      ∃ nonce entry, tickets.entries.lookup nonce = some entry ∧ c.identity = entry.identity) :
    Reports tickets event (registerCandidate env g event peerKey join version claim).2 := by
  have hl := length_of_decodeRange hj
  rw [List.length_drop] at hl
  rcases claim with - | c
  · refine ⟨?_, fun _ => ?_⟩
    · rintro s ⟨⟩
      rfl
    · change join.ticket.length ≤ _
      omega
  · obtain ⟨ticket, ht, hle, nonce, entry, he, hid⟩ := hc c rfl
    refine ⟨?_, fun hs => ?_⟩
    · rintro s ⟨⟩
      rfl
    -- The ticket, the key and the header outweigh the identity.
    have hi := hs nonce entry he
    rw [← hid] at hi
    rw [ht, Option.elim_some, hle] at hl
    change c.identity.length + join.ticket.length ≤ _
    simp only [headerLen, ticketLen, nonceLen, maxIdentityLen] at hl hi
    omega

theorem reports_rejectGameJoin (h : GameRuntime) :
    Reports tickets event (rejectGameJoin env h event).2 := by
  refine reports_of_free ?_ rfl
  rintro s ⟨⟩
  rfl

theorem reports_rangeAuthRequest (hl : 32 ≤ event.data.length) : Reports g.resume.tickets event
    (rangeAuthRequest env g event (event.data.take 32) (event.data.drop 32)).2 := by
  unfold rangeAuthRequest
  split
  · exact reports_rejectGameJoin ..
  · exact reports_rejectGameJoin ..
  rename_i protocol join hs hj
  split
  · split
    · exact reports_rejectGameJoin ..
    · exact reports_registerCandidate env g event hl hj _ _ none nofun
  · rename_i ticket ht
    dsimp only
    split
    · exact reports_rejectGameJoin ..
    rename_i version claim hres
    obtain ⟨hle, he⟩ := identity_of_redeem hres
    refine reports_registerCandidate env _ event hl hj _ _ (some claim) ?_
    rintro c ⟨⟩
    exact ⟨ticket, ht, hle, he⟩

theorem reported_convertAuthRequest :
    Reported g.resume.tickets event (convertAuthRequest env g event).2 := by
  unfold convertAuthRequest
  split_ifs with hl
  · exact reported_error _
  have hre := reports_rangeAuthRequest env g event (Nat.not_lt.mp hl)
  dsimp only
  split <;> exact reported_some hre

/-- **What a converted event becomes.** -/
theorem reported_convertEvent : Reported g.resume.tickets event (convertEvent env g event).2 := by
  have hf : ∀ e : GameEvent, (∀ s ∈ sessionOf e, s = event.session) → e.payloadBytes = 0 →
      Reported g.resume.tickets event (.ok (some e)) :=
    fun e hs hsi => reported_some (reports_of_free hs hsi)
  unfold convertEvent
  split
  · exact hf _ nofun rfl
  · exact hf _ nofun rfl
  · exact hf _ nofun rfl
  · exact reported_convertAuthRequest env g event
  · unfold convertSessionOpened
    split
    · exact reported_none
    split
    · exact reported_none
    · exact reported_tolerate _
  · exact hf _ (by rintro s ⟨⟩; rfl) rfl
  · exact reported_handleGameControlEvent env g event
  · exact reported_convertBusinessEvent g event
  · exact hf _ (by rintro s ⟨⟩; rfl) rfl
  · exact hf _ nofun rfl
  · exact hf _ (by rintro s ⟨⟩; rfl) rfl
  rcases hc : securityChange event with e | change
  · exact reported_error _
  · exact hf _ (by rintro s ⟨⟩; rfl) rfl

end Handlers

theorem reports_resolve (env : Env) (g : GameRuntime) (event : Core.Event) (e : GameEvent)
    (h : (resolve event (convertEvent env g event)).2 = some e) : Reports g.resume.tickets event e := by
  unfold resolve at h
  split at h
  · rename_i outcome ho
    refine reported_convertEvent env g event e ?_
    rw [ho]
    exact congrArg Except.ok h
  · cases h
    refine reports_of_free ?_ rfl
    rintro s ⟨⟩
    rfl

/-! ### Short identities -/

theorem short_of_loses (h : Short r) (hl : ResumeRegistry.Loses r r') : Short r' :=
  fun nonce entry he => h nonce entry (hl.entries nonce entry he)

theorem short_issue (h : Short r) (scope : ResumeScope) (identity : Bytes) (now : Instant)
    (ttl : ℕ) (draws : ℕ → Option Nonce) : Short (r.issue scope identity now ttl draws).1 := by
  have hp := short_of_loses h (ResumeRegistry.loses_prune r now)
  rcases ResumeRegistry.issue_cases r scope identity now ttl draws with
    ⟨e, -, hs | hpr⟩ | ⟨nonce, hv, -, hr, -⟩
  · rw [hs]
    exact h
  · rw [hpr]
    exact hp
  rw [hr]
  intro other entry he
  change (((r.prune now).revokeSession scope.session).entries.insert nonce _).lookup other =
    some entry at he
  rw [lookup_insert_ite] at he
  split_ifs at he
  · cases he
    exact hv.short
  · exact short_of_loses hp (ResumeRegistry.loses_revokeSession _ _) other entry he

theorem short_step (h : Short g.resume.tickets) (input : Input) :
    Short (GameRuntime.step g input).resume.tickets := by
  by_cases his : issuesNothing input = true
  · exact short_of_loses h (loses_step g his)
  cases input with
  | issueResumeTicket env draws session identity =>
    change Short (g.issueResumeTicket env draws session identity).1.resume.tickets
    unfold issueResumeTicket
    split
    · exact h
    split
    · exact h
    rename_i endpoint _
    split
    · exact h
    rename_i info _
    have hi := short_issue h ⟨endpoint, session, info.peerKey, info.protocol⟩ identity
      env.now g.resume.ttl draws
    dsimp only
    split
    · exact hi
    rename_i ticket _
    have hs := (sent_sendControl env { g with resume := { g.resume with
      tickets := (g.resume.tickets.issue ⟨endpoint, session, info.peerKey, info.protocol⟩
        identity env.now g.resume.ttl draws).1 } } .resume session ticket).core
    split
    · rw [hs]
      exact hi
    · rw [hs]
      exact short_of_loses hi (ResumeRegistry.loses_revokeTicket _ _)
  | _ => exact absurd rfl his

/-- **In every run the identity behind a ticket is short.** -/
theorem short_reach {guard : GameRuntime → Input → Prop} (h : machine.Reach guard g) :
    Short g.resume.tickets := by
  refine h.invariant (I := fun g => Short g.resume.tickets) ?_ fun g input hg _ => short_step hg input
  rintro g ⟨config, clockRoom, ttl, maxResumeTickets, sign, hb⟩
  rw [build_spec hb]
  exact nofun

end Rnet.Game.Outcomes
