import Rnet.Transport.Moves

/-! # What an address owns besides its session

An address may own a permit, a KCP preflight, an engine, and on UDP a control record that waits for
its answer and the last control input with its response. This module says what the routines do with
them. Sending and timers leave the permit and the preflight alone and do not take the engine away
(`Held`); a record that answers the input being processed becomes its cached response (`Echo`). Only
a hello with a valid cookie turns an address into one that joins (`Greets`). -/

namespace Rnet.Transport.Holdings

open Rnet.Core Lib.BigEndian Protocol.Records Security.Cipher Security.Controller
open Config State Slots Wire Session Process Maintenance Arms Stages

variable {N : Noise}

def live : Option (Peer N) → Bool
  | none => false
  | some (.cookie _) => false
  | some (.serverReject _) => false
  | some _ => true

/-! ### The wire -/

/-- What the wire leaves alone, and the cache outside of an input. -/
structure Held (l l' : Local N) : Prop where
  permit : l'.slot.permit = l.slot.permit
  preflight : l'.slot.preflight = l.slot.preflight
  activeInput : l'.slot.activeInput = l.slot.activeInput
  engine : l.slot.engine.isSome → l'.slot.engine.isSome
  seen : l.slot.activeInput = none → l'.slot.seen = l.slot.seen

namespace Held

theorem refl (l : Local N) : Held l l := ⟨rfl, rfl, rfl, id, fun _ => rfl⟩

theorem trans (h : Held l₁ l₂) (h' : Held l₂ l₃) : Held l₁ l₃ :=
  ⟨h'.permit.trans h.permit, h'.preflight.trans h.preflight, h'.activeInput.trans h.activeInput,
    fun he => h'.engine (h.engine he),
    fun hi => (h'.seen (h.activeInput.trans hi)).trans (h.seen hi)⟩

end Held

/-- At most one record was sent, and the cache took it as the response to the input being
processed. -/
structure Echo (call : Call N) (l l' : Local N) : Prop extends Held l l' where
  answer : (l'.sent = l.sent ∧ l'.slot.seen = l.slot.seen) ∨ ∃ b, l'.sent = l.sent ++ [b] ∧
    ∀ request, l.slot.activeInput = some request → seenRoom call l = true →
      l'.slot.seen = some ⟨request, some b⟩

/-- What is left of a slot without the session. -/
def bare (s : Slot N) : Slot N := { s with peer := none, deferred := [], rekey := none }

def SameWire (l l' : Local N) : Prop := l'.sent = l.sent ∧ bare l'.slot = bare l.slot

theorem SameWire.refl (l : Local N) : SameWire l l := ⟨rfl, rfl⟩

variable {l l' : Local N}

theorem SameWire.field (h : SameWire l l') (f : Slot N → α) (hf : ∀ s, f (bare s) = f s) :
    f l'.slot = f l.slot := by
  rw [← hf l'.slot, h.2, hf]

theorem SameWire.seen (h : SameWire l l') : l'.slot.seen = l.slot.seen :=
  h.field Slot.seen fun _ => rfl

theorem SameWire.activeInput (h : SameWire l l') :
    l'.slot.activeInput = l.slot.activeInput := h.field Slot.activeInput fun _ => rfl

theorem SameWire.held (h : SameWire l l') : Held l l' where
  permit := h.field Slot.permit fun _ => rfl
  preflight := h.field Slot.preflight fun _ => rfl
  activeInput := h.activeInput
  engine he := (h.field (fun s => s.engine.isSome) fun _ => rfl).trans he
  seen _ := h.seen

namespace Echo

variable {call : Call N}

theorem of_sameWire (h : SameWire l l') : Echo call l l' :=
  ⟨h.held, .inl ⟨h.1, h.seen⟩⟩

theorem refl (l : Local N) : Echo call l l := .of_sameWire (.refl l)

theorem after (h : Echo call l₁ l₂) (h' : SameWire l₂ l₃) : Echo call l₁ l₃ := by
  refine ⟨h.toHeld.trans h'.held, ?_⟩
  rw [h'.1, h'.seen]
  exact h.answer

theorem before (h : SameWire l₁ l₂) (hs : l₂.shared = l₁.shared) (h' : Echo call l₂ l₃) :
    Echo call l₁ l₃ := by
  refine ⟨h.held.trans h'.toHeld, ?_⟩
  have ha := h'.answer
  unfold seenRoom at ha ⊢
  rwa [h.1, h.seen, h.activeInput, hs] at ha

end Echo

section

variable (call : Call N) (l : Local N)

theorem held_engine : Held l (Wire.engine call l).1 := by
  unfold Wire.engine
  cases he : l.slot.engine with
  | some e => exact .refl l
  | none =>
    have hn : ¬ l.slot.engine.isSome := by simp [he]
    dsimp only
    split
    · exact .refl l
    split_ifs
    · exact ⟨rfl, rfl, rfl, fun h => absurd h hn, fun _ => rfl⟩
    · split <;> exact ⟨rfl, rfl, rfl, fun h => absurd h hn, fun _ => rfl⟩

theorem sent_engine :
    (Wire.engine call l).1.sent = l.sent ∧ (Wire.engine call l).1.slot.seen = l.slot.seen := by
  unfold Wire.engine
  split
  · exact ⟨rfl, rfl⟩
  split
  · exact ⟨rfl, rfl⟩
  dsimp only
  split_ifs
  · exact ⟨rfl, rfl⟩
  · split <;> exact ⟨rfl, rfl⟩

theorem echo_queueKcp (bytes : Bytes) (control : Bool) :
    Echo call l (queueKcp call l bytes control).1 ∧
      ((queueKcp call l bytes control).2 = .ok () →
        (queueKcp call l bytes control).1.slot.engine.isSome) := by
  have hh := held_engine call l
  have hs := sent_engine call l
  unfold queueKcp
  cases he : Wire.engine call l with
  | mk l₁ r =>
    rw [he] at hh hs
    cases r with
    | error e => exact ⟨⟨hh, .inl hs⟩, nofun⟩
    | ok e =>
      dsimp only
      split_ifs
      · exact ⟨⟨hh, .inl hs⟩, nofun⟩
      split
      · exact ⟨⟨hh, .inl hs⟩, nofun⟩
      · exact ⟨⟨⟨hh.permit, hh.preflight, hh.activeInput, fun _ => rfl, hh.seen⟩,
          .inl hs⟩, fun _ => rfl⟩

theorem held_sendTo (bytes : Bytes) : Held l (sendTo call l bytes).1 := by
  unfold sendTo
  split_ifs <;> exact ⟨rfl, rfl, rfl, id, fun _ => rfl⟩

end

variable {call : Call N}

theorem echo_cacheResponse (hs : l'.sent = l.sent ++ [bytes]) (hh : Held l l')
    (hse : l'.slot.seen = l.slot.seen) (hsh : l'.shared = l.shared) :
    Echo call l (cacheResponse call l' bytes) := by
  have hro : seenRoom call l' = seenRoom call l := by
    unfold seenRoom
    rw [hse, hsh]
  unfold cacheResponse
  cases hin : l'.slot.activeInput with
  | none =>
    refine ⟨hh, .inr ⟨bytes, hs, fun request hr => ?_⟩⟩
    rw [← hh.activeInput, hin] at hr
    cases hr
  | some request =>
    dsimp only
    have ha : l.slot.activeInput = some request := hh.activeInput.symm.trans hin
    by_cases h : seenRoom call l' = true
    · rw [if_pos h]
      refine ⟨⟨hh.permit, hh.preflight, hh.activeInput, hh.engine, fun hi => ?_⟩,
        .inr ⟨bytes, hs, fun request' hr _ => ?_⟩⟩
      · rw [ha] at hi
        cases hi
      rw [ha] at hr
      cases hr
      rfl
    · rw [if_neg h]
      refine ⟨hh, .inr ⟨bytes, hs, fun _ _ hr => ?_⟩⟩
      rw [← hro] at hr
      exact absurd hr h

section

variable (setup : Setup N) (call : Call N) (l : Local N)

theorem echo_sendReliable (record : Record) (max : ℕ) :
    Echo call l (sendReliable setup call l record max).1 ∧
      (setup.kind = .kcp → (sendReliable setup call l record max).2 = .ok () →
        (sendReliable setup call l record max).1.slot.engine.isSome) := by
  unfold sendReliable
  split
  · exact ⟨.refl l, fun _ => nofun⟩
  rename_i bytes _
  split_ifs with hk
  · exact ⟨(echo_queueKcp call l bytes true).1, fun _ => (echo_queueKcp call l bytes true).2⟩
  · exact ⟨.refl l, fun h => absurd h hk⟩
  unfold sendTo
  split_ifs with hs
  · exact ⟨echo_cacheResponse rfl ⟨rfl, rfl, rfl, id, fun _ => rfl⟩ rfl rfl,
      fun h => absurd h hk⟩
  · exact ⟨.refl l, fun h => absurd h hk⟩

theorem echo_sendResponse (record : Record) (max : ℕ) :
    Echo call l (sendResponse setup call l record max).1 := by
  unfold sendResponse
  split
  · exact .refl l
  rename_i bytes _
  split_ifs
  · exact (echo_queueKcp call l bytes true).1
  unfold sendTo
  split_ifs with hs
  · exact echo_cacheResponse rfl ⟨rfl, rfl, rfl, id, fun _ => rfl⟩ rfl rfl
  · exact .refl l

theorem held_send (record : Record) (max : ℕ) : Held l (send setup call l record max).1 := by
  unfold send
  split
  · exact .refl l
  split_ifs
  · exact (echo_queueKcp ..).1.toHeld
  · exact held_sendTo ..

theorem held_retry : Held l (retry setup call l).1 := by
  unfold retry
  split_ifs
  · exact .refl l
  split
  · exact .refl l
  rename_i p _
  split_ifs
  · exact .refl l
  · exact ⟨rfl, rfl, rfl, id, fun _ => rfl⟩
  · exact (held_sendTo call l p.bytes).trans ⟨rfl, rfl, rfl, id, fun _ => rfl⟩

variable (t : DatagramTransport N) (epoch : ℕ)

theorem echo_sendProtected (kind : ProtectedKind) (data : Bytes) (max : ℕ) :
    Echo call l (sendProtected setup call l t epoch kind data max).1 := by
  unfold sendProtected
  split
  · exact .refl l
  · exact (echo_sendReliable ..).1

theorem echo_sendProtectedResponse (kind : ProtectedKind) (data : Bytes) (max : ℕ) :
    Echo call l (sendProtectedResponse setup call l t epoch kind data max).1 := by
  unfold sendProtectedResponse
  split
  · exact .refl l
  · exact echo_sendResponse ..

theorem echo_respond (response : Option Control) :
    Echo call l (respond setup call l t epoch response).1 := by
  unfold respond
  split
  · exact .refl l
  split_ifs
  · exact echo_sendProtectedResponse ..
  · exact echo_sendProtected ..

end

/-! ### Received records -/

/-- A hello with a valid cookie at an address that does not join yet. -/
structure Greets (setup : Setup N) (call : Call N) (previous : Option (Peer N)) (record : Record) :
    Prop where
  server : ∃ localKey mode, setup.security = .adaptiveServer localKey mode
  hello : record.kind = .clientHello
  cookie : record.payload.length = cookieLen ∧ call.cookieValid record.payload = true
  vacant : previous = none ∨ ∃ expiresAt, previous = some (.cookie expiresAt)

/-- What an arm does to the address it serves. -/
structure ArmHolds (setup : Setup N) (call : Call N) (record : Record) (previous : Option (Peer N))
    (l : Local N) (arm : Arm N) : Prop where
  echo : Echo call l arm.1
  put : ∀ next, arm.2 = .ok next → (previous.isSome → next.isSome) ∧
    (live next = true → live previous = true ∨
      Greets setup call previous record ∧ (setup.kind = .kcp → arm.1.slot.engine.isSome))

section Arms

variable {setup : Setup N} {call : Call N} {record : Record} {previous : Option (Peer N)}
  {l : Local N}

variable {l' : Local N}

theorem ArmHolds.of_error (h : Echo call l l') :
    ArmHolds setup call record previous l (l', .error e) := ⟨h, nofun⟩

theorem ArmHolds.of_after (h : Echo call l s.1)
    (hp : s.2 = .ok () → (previous.isSome → next.isSome) ∧ (live next = true → live previous =
      true ∨ Greets setup call previous record ∧ (setup.kind = .kcp → s.1.slot.engine.isSome))) :
    ArmHolds setup call record previous l (after s next) := by
  obtain ⟨l', e | ⟨⟩⟩ := s
  · exact .of_error h
  · exact ⟨h, fun next hn => by cases hn; exact hp rfl⟩

theorem sameWire_pushEvent (call : Call N) (l : Local N) (event : Event) :
    SameWire l (pushEvent call l event).1 := ⟨rfl, rfl⟩

theorem live_of_sends {max limit : ℕ} (h : Sends setup call record max previous r limit next) :
    live previous = true ∨ Greets setup call previous record := by
  cases h with
  | greets hs hk hr hc hv =>
    by_cases hl : live previous = true
    · exact .inl hl
    refine .inr ⟨⟨_, _, hs⟩, hk, hc, ?_⟩
    cases previous with
    | none => exact .inl rfl
    | some p =>
      cases p with
      | cookie expiresAt => exact .inr ⟨_, rfl⟩
      | serverReject expiresAt => exact absurd rfl (hr expiresAt)
      | _ => exact absurd rfl hl
  | answers | begins | replies | finishes => exact .inl rfl

theorem armHolds_joinArm : ArmHolds setup call record previous l
    (joinArm setup call l previous record) := by
  have h := joins_joinArm setup call l previous record
  have hack : ∀ t, Echo call l (ack setup call l t).1 := fun t => echo_sendProtectedResponse ..
  generalize joinArm setup call l previous record = arm at h
  cases h with
  | stays => exact ⟨.refl l, fun next hn => by cases hn; exact ⟨id, .inl⟩⟩
  | fails => exact .of_error (.refl l)
  | challenges hk hn =>
    refine .of_after (echo_sendResponse ..) fun _ => ?_
    rcases hn with rfl | ⟨d, rfl⟩
    · exact ⟨id, .inl⟩
    · refine ⟨fun _ => rfl, fun hl => .inl ?_⟩
      cases previous
      · cases hl
      · exact hl
  | sends h =>
    have he := echo_sendReliable setup call l
    refine .of_after (he ..).1 fun ho => ⟨fun _ => rfl, fun _ => ?_⟩
    exact (live_of_sends h).imp_right fun hg => ⟨hg, fun hk => (he ..).2 hk ho⟩
  | unregistered => exact .of_error (.of_sameWire ⟨rfl, rfl⟩)
  | registers => exact .of_after (.of_sameWire ⟨rfl, rfl⟩) fun _ => ⟨fun _ => rfl, fun _ => .inl rfl⟩
  | unacknowledged => exact .of_error (hack _)
  | unmarked => exact .of_error ((hack _).after ⟨rfl, rfl⟩)
  | accepts => exact .of_after ((hack _).after ⟨rfl, rfl⟩) fun _ => ⟨fun _ => rfl, fun _ => .inl rfl⟩

end Arms

theorem echo_handleEstablished (setup : Setup N) (call : Call N) (l : Local N) (session : Handle)
    (t : DatagramTransport N) (c : SecurityController) (record : Record) :
    Echo call l (handleEstablished setup call l session t c record).loc := by
  have h := leaves_handleEstablished setup call l session t c record
  generalize (handleEstablished setup call l session t c record).loc = l' at h
  cases h with
  | same => exact .refl l
  | pushed => exact .of_sameWire (sameWire_pushEvent ..)
  | responded => exact echo_respond ..
  | completed => exact (echo_respond ..).after (sameWire_pushEvent ..)

/-- What processing a record does to the address. -/
structure Processes (setup : Setup N) (call : Call N) (record : Record) (l : Local N)
    (r : Local N × Result Unit) : Prop where
  echo : Echo call l r.1
  registered : r.2 = .ok () → l.slot.peer.isSome → r.1.slot.peer.isSome
  joins : live r.1.slot.peer = true → live l.slot.peer = true ∨
    Greets setup call l.slot.peer record ∧ (setup.kind = .kcp → r.1.slot.engine.isSome)

theorem sameWire_setPeer (l : Local N) (peer : Option (Peer N)) : SameWire l (setPeer l peer) :=
  ⟨rfl, rfl⟩

/-- **Processing a record** answers it at most once, keeps a registered address registered unless it
fails, and lets an address join only with a valid cookie. -/
theorem processes_process (setup : Setup N) (call : Call N) (l : Local N) (record : Record) :
    Processes setup call record l (process setup call l record) := by
  have hs := sameWire_setPeer l none
  unfold process
  split
  · rename_i session t c commands lastActivity deadline hp _
    have h := Echo.before hs rfl
      (echo_handleEstablished setup call (setPeer l none) session t c record)
    have hl : live l.slot.peer = true := by rw [hp]; rfl
    unfold establishedArm
    dsimp only
    split <;> exact ⟨h.after (sameWire_setPeer _ _), fun _ _ => rfl, fun _ => .inl hl⟩
  · have h := @armHolds_joinArm N setup call record l.slot.peer (setPeer l none)
    split <;> rename_i he <;> rw [he] at h
    · have hp := (armMove_joinArm setup call (setPeer l none) l.slot.peer record).kept.peer
      rw [he] at hp
      refine ⟨.before hs rfl h.echo, nofun, fun hl => ?_⟩
      rw [show _ = none from hp] at hl
      cases hl
    · exact ⟨(Echo.before hs rfl h.echo).after (sameWire_setPeer _ _), fun _ => (h.put _ rfl).1,
        (h.put _ rfl).2⟩

/-! ### Messages and timers -/

/-- What a routine outside of an input does to the address. -/
structure Quiet (l l' : Local N) : Prop where
  permit : l'.slot.permit = l.slot.permit
  preflight : l'.slot.preflight = l.slot.preflight
  joins : live l'.slot.peer = true → live l.slot.peer = true
  kept : l'.slot.peer.isSome → Held l l'

theorem Quiet.of_held (h : Held l l') (hl : live l'.slot.peer = true → live l.slot.peer = true) :
    Quiet l l' :=
  ⟨h.permit, h.preflight, hl, fun _ => h⟩

theorem Quiet.of_none (hpe : l'.slot.permit = l.slot.permit)
    (hp : l'.slot.preflight = l.slot.preflight) (hpee : l'.slot.peer = none) :
    Quiet l l' := by
  refine ⟨hpe, hp, fun h => ?_, fun h => ?_⟩ <;>
  · rw [hpee] at h
    cases h

theorem Quiet.refl (l : Local N) : Quiet l l := .of_held (.refl l) id

theorem Held.of_rfl (hpe : l'.slot.permit = l.slot.permit)
    (hp : l'.slot.preflight = l.slot.preflight)
    (hi : l'.slot.activeInput = l.slot.activeInput) (he : l'.slot.engine = l.slot.engine)
    (hs : l'.slot.seen = l.slot.seen) : Held l l' :=
  ⟨hpe, hp, hi, fun h => by rw [he]; exact h, fun _ => hs⟩

theorem held_attempts (h : Attempts setup call l t c o l' fate) : Held l l' := by
  have hs : Held l { l with shared := (l.shared.resolveLatest o).1 } := .of_rfl rfl rfl rfl rfl rfl
  rcases h.wire with rfl | ⟨record, max, rfl⟩
  · exact hs
  · exact hs.trans (held_send ..)

theorem Quiet.put_back (hl : live l.slot.peer = true) (h : Held (setPeer l none) l₀)
    (hs : SameWire l₀ l') : Quiet l l' := by
  have h := h.trans hs.held
  exact .of_held ⟨h.permit, h.preflight, h.activeInput, h.engine, h.seen⟩ fun _ => hl

theorem quiet_takeOutbound (setup : Setup N) (call : Call N) (l : Local N) (o : Outbound) :
    Quiet l (takeOutbound setup call l o) := by
  have h := takes_takeOutbound setup call l o
  generalize takeOutbound setup call l o = l' at h
  cases h with
  | ignored => exact .refl l
  | waits => exact .of_held (.of_rfl rfl rfl rfl rfl rfl) id
  | @attempts _ _ _ _ _ _ l₁ fate hp ha ht h =>
    have hl : live l.slot.peer = true := by rw [hp]; rfl
    have hh := held_attempts h
    cases fate with
    | empty | handed | blocked => exact .put_back hl hh ⟨rfl, rfl⟩
    | failed => exact .of_none hh.permit hh.preflight h.driver.peer

theorem quiet_flushDeferred (setup : Setup N) (call : Call N) (l : Local N) :
    Quiet l (flushDeferred setup call l) := by
  have h := flushes_flushDeferred setup call l
  generalize flushDeferred setup call l = l' at h
  cases h with
  | rests => exact .refl l
  | @attempts _ _ _ _ _ _ _ rest l₁ fate hp hd ha ht h =>
    have hl : live l.slot.peer = true := by rw [hp]; rfl
    have hpop : Held (setPeer l none) (popped l rest) := .of_rfl rfl rfl rfl rfl rfl
    have hh := hpop.trans (held_attempts h)
    cases fate with
    | empty | handed | blocked => exact .put_back hl hh ⟨rfl, rfl⟩
    | failed => exact .of_none hh.permit hh.preflight rfl

theorem quiet_driveServer (setup : Setup N) (call : Call N) (l : Local N) :
    Quiet l (driveServer setup call l) := by
  have h := drives_driveServer setup call l
  have hsend : ∀ l₀ t epoch kind data, SameWire (setPeer l none) l₀ → l₀.slot.peer = none →
      Held (setPeer l none) (sendProtected setup call l₀ t epoch kind data 64).1 ∧
        (sendProtected setup call l₀ t epoch kind data 64).1.slot.peer = none :=
    fun l₀ t epoch kind data hs hn => ⟨hs.held.trans (echo_sendProtected ..).toHeld,
      (sameDriver_sendProtected ..).peer.trans hn⟩
  have hdec : ∀ session t mode accepted,
      Held (setPeer l none) (decision setup call l session t mode accepted).1 ∧
        (decision setup call l session t mode accepted).1.slot.peer = none :=
    fun session _ _ _ => hsend (deciding l session) _ _ _ _ ⟨rfl, rfl⟩ rfl
  have hled := fun queue rekey t epoch data => hsend (leading l queue rekey) t epoch .control data
    ⟨rfl, rfl⟩ rfl
  generalize driveServer setup call l = l' at h
  cases h with
  | rests => exact .refl l
  | expires | drops => exact .of_none rfl rfl rfl
  | undecided hp hd hs | unopened hp hd hs =>
    subst hs
    exact .of_none (hdec ..).1.permit (hdec ..).1.preflight (hdec ..).2
  | opens hp hd hs ho =>
    subst hs ho
    exact .put_back (by rw [hp]; rfl) (hdec ..).1 ⟨rfl, rfl⟩
  | rejects hp hd hs =>
    subst hs
    exact .put_back (by rw [hp]; rfl) (hdec ..).1 ⟨rfl, rfl⟩
  | idles hp => exact .put_back (by rw [hp]; rfl) (.refl _) ⟨rfl, rfl⟩
  | unled hp hc hs =>
    subst hs
    exact .of_none (hled ..).1.permit (hled ..).1.preflight (hled ..).2
  | leads hp hc hs =>
    subst hs
    exact .put_back (by rw [hp]; rfl) (hled ..).1 ⟨rfl, rfl⟩

theorem quiet_expirePeer (remote : Option SocketAddr) (call : Call N) (h : Held l l₀) :
    Quiet l (expirePeer remote call l₀).1 := by
  unfold expirePeer
  split
  · rename_i hn
    exact .of_none h.permit h.preflight hn
  split
  · exact .of_none h.permit h.preflight rfl
  · split_ifs <;> exact .of_none h.permit h.preflight rfl

/-! ### One delivered record -/

section Delivered

variable {setup : Setup N} {remote : Option SocketAddr} {initialSession : Option Handle}
  {call : Call N} {l : Local N} {bytes : Bytes} {record : Record}

/-- What is left after `process` kept or found a peer. -/
structure Settles (l₁ l' : Local N) : Prop where
  peer : l'.slot.peer = l₁.slot.peer
  permit : l'.slot.permit = l₁.slot.permit
  preflight : l'.slot.preflight = l₁.slot.preflight
  engine : l'.slot.engine = l₁.slot.engine
  seen : l'.slot.seen = l₁.slot.seen
  sent : l'.sent = l₁.sent
  activeInput : l'.slot.activeInput = none
  pending : l'.slot.pending = l₁.slot.pending ∨ l'.slot.pending = none

/-- After `process`: a failure without a peer takes everything away, and whatever else there is
stays. Only the endpoint of a joining client does not clean up, since it ends. -/
theorem afterProcess_cases {l₁ : Local N} {r : Result Unit} {prior : Option Handle}
    {joining : Bool} :
    (l₁.slot.peer = none ∧ r ≠ .ok () ∧
      (afterProcess remote initialSession call prior joining (l₁, r)).1.slot.peer = none ∧
      (afterProcess remote initialSession call prior joining (l₁, r)).1.slot.preflight =
        l₁.slot.preflight ∧
      ((afterProcess remote initialSession call prior joining (l₁, r)).1.slot.permit = true →
        l₁.slot.permit = true) ∧
      (remote ≠ some call.peer →
        (afterProcess remote initialSession call prior joining (l₁, r)).1.slot.seen = none ∧
        (afterProcess remote initialSession call prior joining (l₁, r)).1.slot.pending = none)) ∨
    ((r = .ok () ∨ l₁.slot.peer.isSome) ∧
      Settles l₁ (afterProcess remote initialSession call prior joining (l₁, r)).1) := by
  have h := @finishes_afterProcess N remote initialSession call prior joining (l₁, r)
  generalize afterProcess remote initialSession call prior joining (l₁, r) = r' at h ⊢
  cases h with
  | settles hr rekey success =>
    refine .inr ⟨hr, rfl, rfl, rfl, rfl, rfl, rfl, rfl, ?_⟩
    unfold endInput
    dsimp only
    split_ifs
    · exact .inr rfl
    · exact .inl rfl
  | fails hp hj => exact .inl ⟨hp, nofun, hp, rfl, id, fun h => absurd hj.1 h⟩
  | @releases _ e hp session =>
    have hd := slot_dropActive l₁ session e
    have hk := congrArg Slot.preflight hd
    refine .inl ⟨hp, nofun, (congrArg Slot.peer hd).trans hp, hk, nofun, fun _ => ⟨rfl, ?_⟩⟩
    unfold endInput
    dsimp only
    split_ifs <;> rfl

end Delivered

end Rnet.Transport.Holdings
