import Rnet.Transport.DatagramLimits
import Rnet.Transport.Emissions
import Rnet.Transport.Moves

/-! # How large the records of a UDP address are

A record is checked by its payload and goes out with a header, and each kind of record has a payload
limit of its own: hellos and controls a fixed one, application messages what admission left them,
the handshake the whole datagram size. `Fits` says of everything an address may still send that it
fits into a datagram with its header, and every routine that serves an address keeps it, provided the
datagram size has room for the records of fixed size, for the challenge a client repeats and for the
join payload with what the handshake adds (`roomy`). -/

namespace Rnet.Transport.RecordSizes

open Rnet.Core Lib.BigEndian Lib.FiniteMap Protocol.Records Security.Cipher
open Security.Controller Security.Handshake Config State Slots Codec Wire Session
open Process Maintenance Arms Worker Emissions
open DatagramLimits (recordPayloadLen length_protectedRecord length_dataRecord)

variable {N : Noise}

/-- Largest payload of the hellos, challenges and protected controls of an endpoint: a cookie. -/
def smallPayload : ℕ := cookieLen

/-- Largest challenge that a client repeats in its hello. -/
def challengePayload : ℕ := 128

/-- The response of the handshake: an ephemeral key, a sealed static key and a tag. -/
def responsePayload : ℕ := 32 + 48 + 16

/-- What the handshake adds to the join payload: a sealed static key and a tag. -/
def finishOverhead : ℕ := 48 + 16

/-- A handshake message with a payload of `len` bytes fits with its header, or exceeds the limit of
the handshake and is not sent. -/
def handshakeFits (c : RuntimeConfig) (len : ℕ) : Bool :=
  headerLen + len ≤ c.maxDatagramSize || c.maxDatagramSize < len

/-- The datagram size has room for the records of a server, or for what a client repeats and for the
end of its handshake. -/
def roomy (setup : Setup N) (c : RuntimeConfig) : Bool :=
  match setup.security with
  | .adaptiveServer _ _ =>
    headerLen + smallPayload ≤ c.maxDatagramSize && handshakeFits c responsePayload
  | .adaptiveClient join =>
    headerLen + challengePayload ≤ c.maxDatagramSize &&
      handshakeFits c (finishOverhead + join.length)

/-- The parts of `roomy`. -/
structure Roomy (setup : Setup N) (c : RuntimeConfig) : Prop where
  small : headerLen + smallPayload ≤ c.maxDatagramSize
  response : handshakeFits c responsePayload = true
  challenge : ∀ join, setup.security = .adaptiveClient join →
    headerLen + challengePayload ≤ c.maxDatagramSize
  join : ∀ join, setup.security = .adaptiveClient join →
    handshakeFits c (finishOverhead + join.length) = true

theorem Roomy.of_roomy (h : roomy setup c = true) : Roomy setup c := by
  unfold roomy at h
  split at h <;> rename_i hs <;> obtain ⟨hf, hh⟩ := Bool.and_eq_true_iff.mp h <;>
    have hf := of_decide_eq_true hf
  · refine ⟨hf, hh, fun join hj => ?_, fun join hj => ?_⟩ <;> rw [hs] at hj <;> cases hj
  · -- where a challenge fits, the response of a handshake does
    have hr : headerLen + responsePayload ≤ c.maxDatagramSize := le_trans (by decide) hf
    refine ⟨le_trans (by decide) hf, Bool.or_eq_true_iff.mpr (.inl (decide_eq_true hr)),
      fun _ _ => hf, fun join hj => ?_⟩
    rw [hs] at hj
    cases hj
    exact hh

/-- A handshake message within the limit of the handshake fits. -/
theorem fits_of_handshakeFits (h : handshakeFits c len = true) (hl : len ≤ c.maxDatagramSize) :
    headerLen + len ≤ c.maxDatagramSize := by
  rcases Bool.or_eq_true_iff.mp h with h | h
  · exact of_decide_eq_true h
  · exact absurd hl (Nat.not_le.mpr (of_decide_eq_true h))

def Light (c : RuntimeConfig) (bytes : Bytes) : Prop :=
  bytes.length + encryptedUdpWireOverhead ≤ c.maxDatagramSize

/-! ### What is shared with the application -/

/-- Routes admit light messages only, and the slots hold light ones. -/
structure Carried (c : RuntimeConfig) (s : Shared) : Prop where
  config : s.config = c
  routes : ∀ session route, s.sessions.lookup session = some route →
    ∃ peer, route.target = .udp peer (c.maxDatagramSize - encryptedUdpWireOverhead)
  slots : ∀ slot bytes, s.latestSlots.lookup slot = some bytes → Light c bytes

namespace Carried

variable {c : RuntimeConfig} {s s' : Shared}

variable (h : Carried c s)
include h

theorem frame (hc : s'.config = s.config) (hro : Sub s'.sessions s.sessions)
    (hs : Sub s'.latestSlots s.latestSlots) : Carried c s' :=
  ⟨hc.trans h.config, fun session route hr => h.routes session route (hro _ _ hr),
    fun slot bytes hb => h.slots slot bytes (hs _ _ hb)⟩

theorem insert
    (hro : ∃ peer, route.target = .udp peer (c.maxDatagramSize - encryptedUdpWireOverhead))
    (hc : s'.config = s.config) (hs : s'.sessions = s.sessions.insert session route)
    (hsl : s'.latestSlots = s.latestSlots) : Carried c s' := by
  refine ⟨hc.trans h.config, fun session' route' hr => ?_, by rw [hsl]; exact h.slots⟩
  rw [hs, lookup_insert_ite] at hr
  split_ifs at hr
  · cases hr; exact hro
  · exact h.routes session' route' hr

theorem publish (event : Event) : Carried c (s.publish event) :=
  h.frame rfl (.refl _) (.refl _)

theorem close (session : Handle) (reason : ErrorCode) (joining : Bool) :
    Carried c (s.close session reason joining) := by
  rcases s.close_cases session reason joining with ⟨-, hs⟩ | ⟨route, -, hc⟩
  · rw [hs]
    exact h
  refine h.frame hc.config ?_ (by rw [hc.latestSlots]; exact .refl _)
  rw [hc.sessions]
  exact .erase _ _

theorem markSessionEstablished (session : Handle) :
    Carried c (s.markSessionEstablished session).1 := by
  unfold Shared.markSessionEstablished
  split
  · exact h
  rename_i route hr
  have hm : ∃ peer, { route with established := true, authDecision := false }.target =
      .udp peer (c.maxDatagramSize - encryptedUdpWireOverhead) := h.routes session route hr
  exact h.insert hm rfl rfl rfl

theorem insertSessionRoute
    (hr : ∃ peer, route.target = .udp peer (c.maxDatagramSize - encryptedUdpWireOverhead)) :
    Carried c (s.insertSessionRoute route).1 := by
  unfold Shared.insertSessionRoute
  split
  · exact h
  · exact h.insert hr rfl rfl rfl

theorem tryPushSessionEvent (room : Bool) (event : Event) :
    Carried c (s.tryPushSessionEvent room event).1 := by
  unfold Shared.tryPushSessionEvent
  split_ifs
  · exact h.publish event
  · exact h.close ..
  · exact h

theorem retargetDatagramSession (session : Handle) (peer : SocketAddr) :
    Carried c (s.retargetDatagramSession session peer).1 := by
  unfold Shared.retargetDatagramSession
  split
  · exact h
  rename_i route hr
  obtain ⟨old, ht⟩ := h.routes session route hr
  rw [ht]
  exact h.insert ⟨peer, rfl⟩ rfl rfl rfl

theorem resolveLatest (ho : Light c o.bytes) :
    Carried c (s.resolveLatest o).1 ∧ ∀ o', (s.resolveLatest o).2 = some o' → Light c o'.bytes := by
  unfold Shared.resolveLatest
  split
  · exact ⟨h, fun o' ho' => by cases ho'; exact ho⟩
  split
  · exact ⟨h, nofun⟩
  rename_i slot _ _ bytes hb
  exact ⟨h.frame rfl (.refl _) (.erase _ _),
    fun o' ho' => by cases ho'; exact h.slots slot bytes hb⟩

end Carried

/-! ### What an address may still send -/

/-- What the wire holds of an address, and what it sent, fits into datagrams. -/
structure Wired (max : ℕ) (l : Local N) : Prop where
  sent : ∀ bytes ∈ l.sent, bytes.length ≤ max
  pending : ∀ p, l.slot.pending = some p → p.bytes.length ≤ max
  seen : ∀ s response, l.slot.seen = some s → s.response = some response → response.length ≤ max

structure Fits (c : RuntimeConfig) (l : Local N) : Prop where
  wire : Wired c.maxDatagramSize l
  shared : Carried c l.shared
  deferred : ∀ o ∈ l.slot.deferred, Light c o.bytes

/-- The end of a handshake in progress fits. -/
def Joinable (c : RuntimeConfig) : Option (Peer N) → Prop
  | some (.clientResponse _ _ join _ _) => handshakeFits c (finishOverhead + join.length) = true
  | _ => True

namespace Wired

variable {max : ℕ} {l : Local N}

theorem keeps (h : Wired max l) (hb : (outbox l).Keeps bytes) : bytes.length ≤ max := by
  rcases hb with ⟨p, hp, rfl⟩ | ⟨request, hs⟩
  · exact h.pending p hp
  · exact h.seen _ bytes hs rfl

/-- A routine that gives only short bytes to the wire, or bytes that were kept, keeps it so. -/
theorem emits (h : Wired max l)
    (he : Emits (fun bytes => bytes.length ≤ max) (outbox l) (outbox l')) : Wired max l' := by
  obtain ⟨more, hs, hm, hk⟩ := he.sent
  have hmore : ∀ bytes ∈ more, bytes.length ≤ max := fun bytes hb =>
    (hm bytes hb).elim id h.keeps
  have hkeep : ∀ bytes, (outbox l').Keeps bytes → bytes.length ≤ max := fun bytes hb =>
    (hk bytes hb).elim h.keeps (hmore bytes)
  refine ⟨fun bytes hb => ?_, fun p hp => hkeep _ (.inl ⟨p, hp, rfl⟩), ?_⟩
  · change bytes ∈ (outbox l').sent at hb
    rw [hs] at hb
    exact (List.mem_append.mp hb).elim (h.sent bytes) (hmore bytes)
  · rintro ⟨request, -⟩ response hse rfl
    exact hkeep _ (.inr ⟨request, hse⟩)

theorem sendReliable (h : Wired max l) (setup : Setup N) (call : Call N)
    (hf : record.payload.length ≤ limit → headerLen + record.payload.length ≤ max) :
    Wired max (sendReliable setup call l record limit).1 :=
  h.emits (emits_sendReliable setup call l limit fun hl => by
    rw [length_recordBytes]
    exact hf hl)

theorem sendResponse (h : Wired max l) (setup : Setup N) (call : Call N)
    (hf : record.payload.length ≤ limit → headerLen + record.payload.length ≤ max) :
    Wired max (sendResponse setup call l record limit).1 :=
  h.emits (emits_sendResponse setup call l limit fun hl => by
    rw [length_recordBytes]
    exact hf hl)

end Wired

namespace Fits

variable {c : RuntimeConfig} {l l' : Local N}

section

variable (h : Fits c l)
include h

theorem frame (hsen : l'.sent = l.sent) (hp : l'.slot.pending = l.slot.pending)
    (hse : l'.slot.seen = l.slot.seen) (hs : Carried c l'.shared)
    (hd : ∀ o ∈ l'.slot.deferred, o ∈ l.slot.deferred) : Fits c l' where
  wire := ⟨by rw [hsen]; exact h.wire.sent, by rw [hp]; exact h.wire.pending,
    by rw [hse]; exact h.wire.seen⟩
  shared := hs
  deferred o ho := h.deferred o (hd o ho)

theorem of_wire (hs : SameDriver l l') (hwi : Wired c.maxDatagramSize l') : Fits c l' :=
  ⟨hwi, by rw [hs.shared]; exact h.shared, by rw [hs.deferred]; exact h.deferred⟩

theorem setPeer (p : Option (Peer N)) : Fits c (setPeer l p) :=
  h.frame rfl rfl rfl h.shared fun _ ho => ho

theorem withShared (hs : Carried c s) : Fits c { l with shared := s } :=
  h.frame rfl rfl rfl hs fun _ ho => ho

theorem pushEvent (call : Call N) (event : Event) : Fits c (pushEvent call l event).1 :=
  h.withShared (h.shared.tryPushSessionEvent call.eventRoom event)

theorem dropSession (session : Handle) (e : RnetError) : Fits c (dropSession l session e) :=
  h.withShared (h.shared.close session e.code false)

theorem clearDeferred : Fits c (clearDeferred l) :=
  h.frame rfl rfl rfl h.shared fun _ ho => absurd ho List.not_mem_nil

theorem removePeer : Fits c (removePeer l) :=
  h.of_wire (sameDriver_removePeer l) (h.wire.emits (emits_removePeer l))

theorem endInput (success : Bool) : Fits c (endInput l success) :=
  h.of_wire (sameDriver_endInput l success) (h.wire.emits (emits_endInput l success))

theorem release : Fits c (release l) :=
  h.clearDeferred.removePeer.frame rfl rfl rfl h.shared fun _ ho => ho

theorem noteHanded (call : Call N) (session : Handle) (k : SecurityController) (o : Outbound) :
    Fits c (noteHanded call l session k o) :=
  h.frame rfl rfl rfl h.shared fun _ ho => ho

theorem defer (ho : Light c o.bytes) : Fits c (defer l o) where
  wire := ⟨h.wire.sent, h.wire.pending, h.wire.seen⟩
  shared := h.shared
  deferred o' ho' := by
    rcases List.mem_append.mp ho' with ho' | ho'
    · exact h.deferred o' ho'
    · rw [List.mem_singleton.mp ho']
      exact ho

end

variable {setup : Setup N}

section Sending

variable (laws : N.CipherLaws) (hroom : Roomy setup c)
include laws hroom

variable {record : Record}

omit laws in
theorem sendReliable_small (h : Fits c l) (call : Call N)
    (hl : record.payload.length ≤ smallPayload) (limit : ℕ) :
    Fits c (sendReliable setup call l record limit).1 :=
  h.of_wire (sameDriver_sendReliable ..) (h.wire.sendReliable setup call fun _ =>
    (Nat.add_le_add_left hl _).trans hroom.small)

omit laws in
theorem sendResponse_small (h : Fits c l) (call : Call N)
    (hl : record.payload.length ≤ smallPayload) (limit : ℕ) :
    Fits c (sendResponse setup call l record limit).1 :=
  h.of_wire (sameDriver_sendResponse ..) (h.wire.sendResponse setup call fun _ =>
    (Nat.add_le_add_left hl _).trans hroom.small)

omit hroom in
theorem protectedRecord_small {t t' : DatagramTransport N} {max : ℕ} (hd : data.length ≤ controlLen)
    (h : protectedRecord t epoch kind data max = (t', .ok record)) :
    record.payload.length ≤ smallPayload := by
  rw [length_protectedRecord laws h]
  unfold protectedHeaderLen tagLen smallPayload cookieLen controlLen at *
  omega

section

variable (h : Fits c l) (call : Call N) (t : DatagramTransport N) (epoch : ℕ)
include h

theorem sendProtected (kind : ProtectedKind) (hd : data.length ≤ controlLen) (max : ℕ) :
    Fits c (sendProtected setup call l t epoch kind data max).1 := by
  unfold Session.sendProtected
  split
  · exact h
  · exact h.sendReliable_small hroom call (protectedRecord_small laws hd ‹_›) _

theorem sendProtectedResponse (kind : ProtectedKind) (hd : data.length ≤ controlLen) (max : ℕ) :
    Fits c (sendProtectedResponse setup call l t epoch kind data max).1 := by
  unfold Session.sendProtectedResponse
  split
  · exact h
  · exact h.sendResponse_small hroom call (protectedRecord_small laws hd ‹_›) _

theorem respond (response : Option Control) : Fits c (respond setup call l t epoch response).1 := by
  unfold Session.respond
  split
  · exact h
  rename_i control
  have hd : (encodeControl control).length ≤ controlLen := (length_encodeControl control).le
  split_ifs
  · exact h.sendProtectedResponse laws hroom call t epoch _ hd _
  · exact h.sendProtected laws hroom call t epoch _ hd _

end

/-! ### Received records -/

theorem handleEstablished (h : Fits c l) (call : Call N) (session : Handle)
    (t : DatagramTransport N) (k : SecurityController) (record : Record) :
    Fits c (handleEstablished setup call l session t k record).loc := by
  have hl := leaves_handleEstablished setup call l session t k record
  generalize (Session.handleEstablished setup call l session t k record).loc = l' at hl
  cases hl with
  | same => exact h
  | pushed => exact h.pushEvent ..
  | responded => exact h.respond laws hroom ..
  | completed => exact (h.respond laws hroom ..).pushEvent ..

end Sending

end Fits

/-- What an arm leaves fits. -/
structure ArmFits (c : RuntimeConfig) (arm : Arm N) : Prop where
  loc : Fits c arm.1
  peer : ∀ next, arm.2 = .ok next → Joinable c next

theorem ArmFits.of_error (h : Fits c l) : ArmFits c (l, .error e) := ⟨h, nofun⟩

theorem ArmFits.of_ok (h : Fits c l) (hp : Joinable c p) : ArmFits c (l, .ok p) :=
    ⟨h, fun next hn => by cases hn; exact hp⟩

section Arms

variable {c : RuntimeConfig} {l : Local N} {setup : Setup N}

theorem ArmFits.of_after (h : Fits c s.1) (hp : Joinable c p) : ArmFits c (after s p) := by
  obtain ⟨l', e | ⟨⟩⟩ := s
  · exact .of_error h
  · exact .of_ok h hp

theorem Fits.marked (h : Fits c l) (session : Handle) : Fits c (marked l session) :=
  h.withShared (h.shared.markSessionEstablished session)

/-- A record that moves a peer on fits. A challenge is repeated up to a limit of its own. A handshake
message fits although its limit is the whole datagram; the finish carries the join payload, and needs
room for it. -/
theorem fits_sends (hroom : Roomy setup c) (sizes : N.HandshakeSizes) (h : Fits c l)
    (hp : Joinable c previous)
    (hs : Sends setup call record c.maxDatagramSize previous r limit next) :
    Fits c (sendReliable setup call l r limit).1 ∧ Joinable c (some next) := by
  have hsend : (r.payload.length ≤ limit → headerLen + r.payload.length ≤ c.maxDatagramSize) →
      Fits c (sendReliable setup call l r limit).1 := fun hl =>
    h.of_wire (sameDriver_sendReliable ..) (h.wire.sendReliable setup call hl)
  cases hs with
  | greets =>
    refine ⟨h.sendReliable_small hroom call ?_ _, trivial⟩
    rw [List.length_cons, sizes.length_publicKey]
    decide
  | answers hs =>
    exact ⟨hsend fun hl => (Nat.add_le_add_left hl _).trans (hroom.challenge _ hs), trivial⟩
  | begins hk hs =>
    refine ⟨h.sendReliable_small hroom call ?_ _, hroom.join _ hs⟩
    rw [InitiatorHandshake.writeFirst, sizes.length_first]
    decide
  | replies hr hw =>
    refine ⟨hsend fun hl => ?_, trivial⟩
    rw [ResponderHandshake.length_writeResponse sizes hr hw] at hl ⊢
    exact fits_of_handshakeFits hroom.response hl
  | finishes hk hr hf =>
    refine ⟨hsend fun hl => ?_, trivial⟩
    rw [InitiatorHandshake.length_finishDatagram sizes hr hf] at hl ⊢
    exact fits_of_handshakeFits hp hl

theorem armFits_joinArm (hkind : setup.kind = .udp) (hroom : Roomy setup c) (laws : N.CipherLaws)
    (sizes : N.HandshakeSizes) (h : Fits c l) (call : Call N) (hp : Joinable c previous)
    (record : Record) : ArmFits c (joinArm setup call l previous record) := by
  have hj := joins_joinArm setup call l previous record
  have hro : ∃ peer, (acceptedRoute setup l.shared.config call.peer).target =
      .udp peer (c.maxDatagramSize - encryptedUdpWireOverhead) := by
    refine ⟨call.peer, ?_⟩
    simp only [acceptedRoute, hkind, reduceCtorEq, if_false, h.shared.config]
  have hi := h.shared.insertSessionRoute hro
  have hack : ∀ t, Fits c (ack setup call l t).1 := fun t =>
    h.sendProtectedResponse laws hroom call t initialEpoch .authAck (Nat.zero_le _) 32
  generalize joinArm setup call l previous record = arm at hj
  cases hj with
  | stays => exact .of_ok h hp
  | fails => exact .of_error h
  | challenges hk hn =>
    refine .of_after (h.sendResponse_small hroom call call.cookieIssue.length_eq.le _) ?_
    rcases hn with rfl | ⟨d, rfl⟩
    · exact hp
    · cases previous
      · trivial
      · exact hp
  | sends hs =>
    rw [h.shared.config] at hs
    obtain ⟨hf, hn⟩ := fits_sends hroom sizes h hp hs
    exact .of_after hf hn
  | unregistered => exact .of_error (h.withShared hi)
  | registers hs hk hf hr =>
    rw [hr] at hi
    exact .of_after ((h.withShared hi).pushEvent call _) trivial
  | unacknowledged => exact .of_error (hack _)
  | unmarked => exact .of_error ((hack _).marked _)
  | accepts => exact .of_after (((hack _).marked _).pushEvent call _) trivial

end Arms

/-! ### What the routines leave -/

/-- Everything an address sends fits, and so does the join payload it may be about to send. -/
structure Sized (c : RuntimeConfig) (l : Local N) : Prop where
  fits : Fits c l
  join : Joinable c l.slot.peer

section Routines

variable {c : RuntimeConfig} {l : Local N} {setup : Setup N}

theorem sized_process (hkind : setup.kind = .udp) (hroom : Roomy setup c) (laws : N.CipherLaws)
    (sizes : N.HandshakeSizes) (h : Sized c l) (call : Call N) (record : Record) :
    Sized c (process setup call l record).1 := by
  unfold process
  split
  · rename_i session t k commands lastActivity deadline _ _
    have hh := (h.fits.setPeer none).handleEstablished laws hroom call session t k record
    unfold establishedArm
    dsimp only
    split <;> exact ⟨hh.setPeer _, trivial⟩
  · have ha := armFits_joinArm hkind hroom laws sizes (h.fits.setPeer none) call h.join record
    have hk := (Stages.armMove_joinArm setup call (setPeer l none) l.slot.peer record).kept.peer
    split <;> rename_i he <;> rw [he] at ha hk
    · refine ⟨ha.loc, ?_⟩
      rw [show _ = none from hk]
      trivial
    · exact ⟨ha.loc.setPeer _, ha.peer _ rfl⟩

theorem Sized.of_fits (h : Sized c l) (hf : Fits c l')
    (hp : l'.slot.peer = l.slot.peer ∨ l'.slot.peer = none) : Sized c l' := by
  refine ⟨hf, ?_⟩
  rcases hp with hp | hp <;> rw [hp]
  · exact h.join
  · trivial

theorem Sized.endInput (h : Sized c l) (success : Bool) : Sized c (endInput l success) :=
  h.of_fits (h.fits.endInput success) (.inl rfl)

theorem sized_finishes (h : Sized c processed.1) (hf : Finishes remote call joining processed r) :
    Sized c r.1 := by
  cases hf with
  | @settles r l _ rekey success =>
    have hr : Sized c { l with slot := { l.slot with rekey := rekey } } :=
      ⟨h.fits.frame rfl rfl rfl h.fits.shared fun _ ho => ho, h.join⟩
    exact hr.endInput success
  | fails => exact h
  | @releases l e hp session =>
    have hd : Fits c (dropActive l session e) := by
      unfold dropActive
      split
      · exact h.fits
      split
      · exact h.fits.dropSession _ _
      · exact h.fits
    exact h.of_fits (hd.release.endInput false)
      (.inr ((congrArg Slot.peer (slot_dropActive ..)).trans hp))

theorem sized_receiveRecord (hkind : setup.kind = .udp) (hroom : Roomy setup c)
    (laws : N.CipherLaws) (sizes : N.HandshakeSizes) (h : Sized c l)
    (remote : Option SocketAddr) (initialSession : Option Handle) (call : Call N) (bytes : Bytes) :
    Sized c (receiveRecord setup remote initialSession call l bytes).1 := by
  have hr : Receives setup remote initialSession call l bytes _ := receives_receiveRecord
  generalize receiveRecord setup remote initialSession call l bytes = r at hr
  cases hr with
  | refused => exact h
  | @repeated record lp response l' _ hp hs hl =>
    have hf : Fits c lp := by
      rcases hp with ⟨rfl, -⟩ | ⟨rfl, -⟩
      · exact h.fits
      · exact h.fits.frame rfl rfl rfl h.fits.shared fun _ ho => ho
    subst hl
    refine h.of_fits ?_ (.inl (hp.repeated response).peer)
    cases response with
    | none => exact hf
    | some b => exact hf.of_wire (sameDriver_sendTo ..) (hf.wire.emits
      (emits_sendTo call _ (.inl (h.fits.wire.seen _ b hs rfl))))
  | @processed record l₀ _ hb =>
    have hw : Wired c.maxDatagramSize l₀ := by
      refine ⟨by rw [hb.sent]; exact h.fits.wire.sent,
        by rw [hb.pending]; exact h.fits.wire.pending, ?_⟩
      rcases hb.seen with hs | hs <;> rw [hs]
      · exact h.fits.wire.seen
      · rintro s response ⟨⟩ ⟨⟩
    exact sized_finishes (sized_process hkind hroom laws sizes
      (h.of_fits (h.fits.of_wire hb.toSameDriver hw) (.inl hb.peer)) call record)
          (finishes_afterProcess ..)

/-! ### Application messages -/

theorem length_encodeOutbound (laws : N.CipherLaws) {t t' : DatagramTransport N} {max : ℕ}
    (h : encodeOutbound t k o max = (t', .ok record)) (ho : Light c o.bytes) :
    headerLen + record.payload.length ≤ c.maxDatagramSize := by
  unfold Light encryptedUdpWireOverhead at ho
  unfold encodeOutbound at h
  split at h
  · have hl := length_dataRecord laws h
    unfold recordPayloadLen protectedHeaderLen tagLen at hl
    split at hl <;> unfold headerLen <;> omega
  · have hl := length_protectedRecord laws h
    unfold headerLen protectedHeaderLen tagLen at *
    omega

theorem Sized.vacant (h : Fits c l) (hn : l.slot.peer = none) : Sized c l :=
  ⟨h, by rw [hn]; trivial⟩

theorem fits_attempts (laws : N.CipherLaws) (h : Fits c l) (ho : Light c o.bytes)
    (ha : Attempts setup call l t k o l' fate) :
    Fits c l' ∧ ∀ o', fate.message = some o' → Light c o'.bytes := by
  obtain ⟨hs, hl⟩ := h.shared.resolveLatest ho
  refine ⟨?_, fun o' hf => hl o' (ha.message hf)⟩
  cases ha with
  | empty hr | refused hr =>
    rw [hr] at hs
    exact h.withShared hs
  | failed hr he hse | blocked hr he hse | handed hr he hse =>
    rw [hr] at hs hl
    obtain rfl : _ = l' := congrArg Prod.fst hse
    have hf := h.withShared hs
    exact hf.of_wire (sameDriver_send ..) (hf.wire.emits (emits_send setup call _ _
      ((length_recordBytes _).le.trans (length_encodeOutbound laws he (hl _ rfl)))))

theorem sized_takeOutbound (laws : N.CipherLaws) (h : Sized c l) (call : Call N)
    (ho : Light c o.bytes) : Sized c (takeOutbound setup call l o) := by
  have ht := takes_takeOutbound setup call l o
  generalize takeOutbound setup call l o = l' at ht
  cases ht with
  | ignored => exact h
  | waits => exact ⟨h.fits.defer ho, h.join⟩
  | @attempts session _ k _ _ _ l₁ fate hp hac htr ha =>
    obtain ⟨hf, hm⟩ := fits_attempts laws (h.fits.setPeer none) ho ha
    cases fate with
    | empty => exact ⟨hf.setPeer _, trivial⟩
    | failed e => exact .vacant (hf.dropSession _ _) ha.driver.peer
    | handed t o' => exact ⟨(hf.noteHanded call session k o').setPeer _, trivial⟩
    | blocked t o' => exact ⟨(hf.defer (hm o' rfl)).setPeer _, trivial⟩

theorem sized_flushDeferred (laws : N.CipherLaws) (h : Sized c l) (call : Call N) :
    Sized c (flushDeferred setup call l) := by
  have hfl := flushes_flushDeferred setup call l
  generalize flushDeferred setup call l = l' at hfl
  cases hfl with
  | rests => exact h
  | @attempts session _ k _ _ _ o rest l₁ fate hp hd hac htr ha =>
    have ho : Light c o.bytes := h.fits.deferred o (by rw [hd]; exact List.mem_cons_self)
    have hpop : Fits c (popped l rest) :=
      h.fits.frame rfl rfl rfl h.fits.shared fun o' ho' => by
        rw [hd]
        exact List.mem_cons_of_mem o ho'
    obtain ⟨hf, hm⟩ := fits_attempts laws hpop ho ha
    cases fate with
    | empty =>
      refine ⟨hf, show Joinable c l₁.slot.peer from ?_⟩
      rw [ha.driver.peer.trans hp]
      trivial
    | failed e =>
      exact .vacant ((hf.dropSession session e).setPeer none).removePeer.clearDeferred rfl
    | handed t o' => exact ⟨(hf.noteHanded call session k o').setPeer _, trivial⟩
    | blocked t o' =>
      refine ⟨⟨⟨hf.wire.sent, hf.wire.pending, hf.wire.seen⟩, hf.shared, fun o'' ho'' => ?_⟩, trivial⟩
      rcases List.mem_cons.mp ho'' with rfl | ho''
      · exact hm _ rfl
      · exact hf.deferred o'' ho''

/-! ### Timers and cleanup -/

theorem sized_driveServer (hroom : Roomy setup c) (laws : N.CipherLaws) (h : Sized c l)
    (call : Call N) :
    Sized c (driveServer setup call l) := by
  have hd := drives_driveServer setup call l
  have hn := h.fits.setPeer none
  have hsend : ∀ {l₀ : Local N} {data : Bytes} (t epoch kind), data.length ≤ controlLen →
      Fits c l₀ → l₀.slot.peer = none →
      Fits c (sendProtected setup call l₀ t epoch kind data 64).1 ∧
        (sendProtected setup call l₀ t epoch kind data 64).1.slot.peer = none :=
    fun t epoch kind hd hf hn =>
      ⟨hf.sendProtected laws hroom call t epoch kind hd 64,
        (sameDriver_sendProtected ..).peer.trans hn⟩
  have hdec : ∀ session t mode accepted,
      Fits c (decision setup call l session t mode accepted).1 ∧
        (decision setup call l session t mode accepted).1.slot.peer = none :=
    fun session _ _ _ => hsend _ _ _ (show 2 ≤ controlLen by decide)
      (hn.withShared (h.fits.shared.frame rfl (.refl _) (.refl _))) rfl
  have hlead : ∀ queue rekey, Fits c (leading l queue rekey) := fun queue _ =>
    h.fits.frame rfl rfl rfl (h.fits.shared.frame rfl (.refl _) (.refl _)) fun _ ho => ho
  have hled := fun queue rekey t epoch control => hsend t epoch .control
    (length_encodeControl control).le (hlead queue rekey) rfl
  generalize driveServer setup call l = l' at hd
  cases hd with
  | rests => exact h
  | expires => exact .vacant hn.removePeer rfl
  | drops => exact .vacant (hn.dropSession ..).removePeer rfl
  | undecided hp hd hs =>
    subst hs
    exact .vacant ((hdec ..).1.dropSession ..) (hdec ..).2
  | unopened hp hd hs =>
    subst hs
    exact .vacant (((hdec ..).1.marked _).pushEvent ..) (hdec ..).2
  | @opens session t mode _ _ _ _ hp hd hs ho =>
    subst hs ho
    have hp := ((hdec session t mode true).1.marked session).pushEvent call
      (sessionEvent .sessionOpened setup.endpoint session)
    exact ⟨hp.frame rfl rfl rfl hp.shared fun _ ho => ho, trivial⟩
  | rejects hp hd hs =>
    subst hs
    exact ⟨((hdec ..).1.withShared ((hdec ..).1.shared.close ..)).setPeer _, trivial⟩
  | idles hp => exact ⟨(hlead ..).setPeer _, trivial⟩
  | unled hp hc hs =>
    subst hs
    exact .vacant ((hled ..).1.dropSession ..) (hled ..).2
  | leads hp hc hs =>
    subst hs
    exact ⟨(hled ..).1.setPeer _, trivial⟩

theorem sized_cleanupPeer (h : Sized c l) (session : Handle) : Sized c (cleanupPeer l session) := by
  unfold cleanupPeer
  extract_lets keep l₁
  have h₁ : Sized c l₁ := by
    change Sized c (if keep then l else removePeer (clearDeferred (setPeer l none)))
    split_ifs
    · exact h
    · exact .vacant (h.fits.setPeer none).clearDeferred.removePeer rfl
  exact ⟨h₁.fits.frame rfl rfl rfl h₁.fits.shared fun _ ho => ho, h₁.join⟩

theorem sized_expirePeer (h : Sized c l) (remote : Option SocketAddr) (call : Call N) :
    Sized c (expirePeer remote call l).1 := by
  have hc := (h.fits.setPeer none).clearDeferred
  unfold expirePeer
  split
  · exact h
  split
  · exact .vacant hc rfl
  split_ifs
  · exact .vacant hc rfl
  · exact .vacant (hc.dropSession _ _) rfl

theorem sized_retry (h : Sized c l) (call : Call N) : Sized c (retry setup call l).1 :=
  h.of_fits (h.fits.of_wire (sameDriver_retry ..) (h.fits.wire.emits (emits_retry setup call l)))
    (.inl (sameDriver_retry ..).peer)

theorem sized_reclaim (h : Sized c l) (now : Instant) : Sized c (Endpoint.reclaim now l) := by
  unfold Endpoint.reclaim
  dsimp only
  split_ifs <;>
    exact ⟨h.fits.frame rfl rfl rfl h.fits.shared fun _ ho => ho, h.join⟩

end Routines

end Rnet.Transport.RecordSizes
