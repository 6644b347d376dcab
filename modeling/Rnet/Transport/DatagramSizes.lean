import Rnet.Transport.RecordSizes

/-! # How large the datagrams of a UDP endpoint are

Everything a UDP endpoint sends fits into a datagram (`udp_datagrams_fit`), provided the datagram size
has room for the records of fixed size, for a challenge to repeat and for the join payload with what
the handshake adds to it. The handshake limit does not ask for that room (`oversized_finish`). -/

namespace Rnet.Transport.DatagramSizes

open Rnet.Core Lib.BigEndian Lib.FiniteMap Lib.GuardedRun Protocol.Records Security.Cipher
open Security.TagNoise Config State Slots Codec Wire
open Process Sending Maintenance KcpPreflight Worker RecordSizes
open Joining (joined server calm arrive home)

variable {N : Noise}

/-! ### The endpoint -/

variable {c : RuntimeConfig} {setup : Setup N}

theorem sized_sendClientHello (hkind : setup.kind = .udp) (hroom : Roomy setup c) (h : Sized c l)
    (call : Call N) (conv : ℕ) : Sized c (Endpoint.sendClientHello setup call l conv).1 := by
  unfold Endpoint.sendClientHello
  rw [if_neg (by rw [hkind]; nofun)]
  exact h.of_fits (h.fits.sendReliable_small hroom call (Nat.zero_le _) _)
    (.inl (sameDriver_sendReliable ..).peer)

/-- What a slot holds for sending fits. -/
structure Ready (c : RuntimeConfig) (s : Slot N) : Prop where
  pending : ∀ p, s.pending = some p → p.bytes.length ≤ c.maxDatagramSize
  seen : ∀ r response, s.seen = some r → r.response = some response →
    response.length ≤ c.maxDatagramSize
  deferred : ∀ o ∈ s.deferred, Light c o.bytes
  join : Joinable c s.peer

/-- Everything the endpoint sent fits into a datagram, and so does everything it holds. -/
structure Small (c : RuntimeConfig) (ep : Endpoint N) : Prop where
  sent : ∀ a bytes, (a, bytes) ∈ ep.sent → bytes.length ≤ c.maxDatagramSize
  slots : ∀ a, Ready c (ep.slot a)
  shared : Carried c ep.shared
  receiver : ∀ a o, (a, o) ∈ ep.receiver → Light c o.bytes
  offers : ∀ f ∈ ep.offers, Light c f.bytes

namespace Small

variable {c : RuntimeConfig} {ep ep' : Endpoint N}

theorem frame (h : Small c ep) (hse : ep'.sent = ep.sent) (hsl : ep'.slots = ep.slots)
    (hs : Carried c ep'.shared) (hr : ∀ x ∈ ep'.receiver, x ∈ ep.receiver)
    (hof : ∀ f ∈ ep'.offers, f ∈ ep.offers) : Small c ep' where
  sent := by rw [hse]; exact h.sent
  slots a := by rw [Endpoint.slot, hsl]; exact h.slots a
  shared := hs
  receiver a o ho := h.receiver a o (hr _ ho)
  offers f hf := h.offers f (hof f hf)

theorem withShared (h : Small c ep) (hs : Carried c s) :
    Small c { ep with shared := s } := h.frame rfl rfl hs (fun _ hx => hx) fun _ hf => hf

theorem view (h : Small c ep) (a : SocketAddr) : Sized c (ep.view a) where
  fits := ⟨⟨nofun, (h.slots a).pending, (h.slots a).seen⟩, h.shared, (h.slots a).deferred⟩
  join := (h.slots a).join

theorem put (h : Small c ep) (hl : Sized c l) : Small c (ep.put a l) where
  sent b bytes hb := by
    rcases List.mem_append.mp hb with hb | hb
    · exact h.sent b bytes hb
    obtain ⟨bytes', hb', he⟩ := List.mem_map.mp hb
    cases he
    exact hl.fits.wire.sent _ hb'
  slots b := by
    rw [Endpoint.slot_put]
    split_ifs
    · exact ⟨hl.fits.wire.pending, hl.fits.wire.seen, hl.fits.deferred, hl.join⟩
    · exact h.slots b
  shared := hl.fits.shared
  receiver := h.receiver
  offers := h.offers

theorem fail (h : Small c ep) (client : Option Handle) (code : ErrorCode) :
    Small c (ep.fail client code) := by
  have hs := List.foldlRecOn (motive := Carried c) ep.shared.sessions.keys
    (fun s session => s.close session code (client = some session)) h.shared
    fun s hs session _ => hs.close ..
  exact h.frame rfl rfl hs (fun _ hx => hx) fun _ hf => hf

variable {setup : Setup N}

theorem datagram (hkind : setup.kind = .udp) (h : Small c ep) (call : Call N) (packet : Bytes)
    (kcp : KcpInput) :
    Small c (ep.datagram setup call packet kcp) := by
  have hu : setup.kind ≠ .kcp := by rw [hkind]; nofun
  unfold Endpoint.datagram
  dsimp only
  rw [handlePreflight_past (.inl hu)]
  dsimp only
  rw [if_neg hu]
  exact (h.put (h.view call.peer)).frame rfl rfl h.shared (fun _ hx => hx) fun _ hf => hf

theorem serve (hkind : setup.kind = .udp) (hroom : Roomy setup c) (laws : N.CipherLaws)
    (sizes : N.HandshakeSizes) (h : Small c ep) (call : Call N) :
    Small c (ep.serve setup call) := by
  unfold Endpoint.serve
  split
  · exact h
  rename_i a bytes rest _
  have hs := h.put (a := a) (sized_receiveRecord hkind hroom laws sizes (h.view a) ep.remote
    ep.initialSession (ep.answer { call with peer := a }) bytes)
  dsimp only
  split
  · exact hs.frame rfl rfl hs.shared (fun _ hx => hx) fun _ hf => hf
  · refine fail ?_ _ _
    exact hs.frame rfl rfl hs.shared (fun _ hx => hx) fun _ hf => hf

theorem outbound (laws : N.CipherLaws) (h : Small c ep) (call : Call N) :
    Small c (ep.outbound setup call) := by
  unfold Endpoint.outbound
  split
  · exact h
  rename_i a o rest hr
  split_ifs
  · have ho : Light c o.bytes := h.receiver a o (by rw [hr]; exact List.mem_cons_self)
    have ht : Small c (ep.put a (takeOutbound setup (ep.answer { call with peer := a })
        (ep.view a) o)) := h.put (sized_takeOutbound laws (h.view a) _ ho)
    refine ht.frame rfl rfl ht.shared (fun x hx => ?_) fun _ hf => hf
    change x ∈ ep.receiver
    rw [hr]
    exact List.mem_cons_of_mem _ hx
  · exact h

theorem cleanup (h : Small c ep) : Small c ep.cleanup := by
  unfold Endpoint.cleanup
  split
  · exact h
  rename_i request rest _
  have hr : Small c { ep with shared := { ep.shared with cleanup := rest } } :=
    h.withShared (h.shared.frame rfl (.refl _) (.refl _))
  exact hr.put (sized_cleanupPeer (hr.view request.peer) request.session)

theorem connectTimeout (h : Small c ep) (now : Instant) : Small c (ep.connectTimeout now) := by
  unfold Endpoint.connectTimeout
  split
  · exact h
  split
  · exact h
  dsimp only
  split
  · split
    · exact h.frame rfl rfl h.shared (fun _ hx => hx) fun _ hf => hf
    · exact h.fail _ _
  · exact h

theorem abandon (h : Small c ep) (current : SocketAddr) (rest : List SocketAddr) :
    Small c (ep.abandon current rest) := by
  have hp := ((h.view current).fits.setPeer none).removePeer
  have hr : Sized c
      { removePeer (setPeer (ep.view current) none) with
        slot := { (removePeer (setPeer (ep.view current) none)).slot with
          preflight := none, permit := false, rekey := none } } :=
    .vacant (hp.frame rfl rfl rfl hp.shared fun _ ho => ho) rfl
  exact (h.put hr).frame rfl rfl hp.shared (fun _ hx => hx) fun _ hf => hf

theorem approach (hkind : setup.kind = .udp) (hroom : Roomy setup c) (h : Small c ep)
    (call : Call N) (conv : ℕ) (session : Handle) :
    Small c (ep.approach setup call conv session) := by
  have hr := h.shared.retargetDatagramSession session call.peer
  unfold Endpoint.approach
  dsimp only
  split <;> rename_i he <;> rw [he] at hr
  · exact (h.withShared hr).fail _ _
  rename_i shared
  have hs := h.withShared hr
  have hh := sized_sendClientHello hkind hroom (hs.view call.peer)
    (Endpoint.answer { ep with shared := shared } call) conv
  split <;> rename_i l hse <;> rw [hse] at hh
  · exact (hs.put hh).fail _ _
  have hj : Sized c (setPeer l (some (.clientHello session call.now))) :=
    ⟨hh.fits.setPeer _, trivial⟩
  exact (hs.put hj).frame rfl rfl hh.fits.shared (fun _ hx => hx) fun _ hf => hf

theorem retryCandidate (hkind : setup.kind = .udp) (hroom : Roomy setup c) (h : Small c ep)
    (call : Call N) (conv : ℕ) (rebound : Bool) :
    Small c (ep.retryCandidate setup call conv rebound) := by
  unfold Endpoint.retryCandidate
  split
  · split
    · exact h
    split_ifs
    · exact (h.abandon _ _).fail _ _
    · exact (h.abandon _ _).approach hkind hroom _ conv _
  · exact h

theorem retryPeer (h : Small c ep) (call : Call N) : Small c (ep.retryPeer setup call) := by
  have hr : Sized c (retry setup (ep.answer call) (ep.view call.peer)).1 :=
    sized_retry (h.view call.peer) (ep.answer call)
  unfold Endpoint.retryPeer
  dsimp only
  split <;> rename_i heq <;> rw [heq] at hr
  · exact h.put hr
  rename_i l
  have he := sized_expirePeer hr ep.remote call
  split <;> rename_i hex <;> rw [hex] at he
  · exact h.put he
  · exact (h.put he).fail _ _

theorem prepareSend (hroom : Roomy setup c) (h : Small c ep) (usage : Usage) (session : Handle)
    (frame : Bytes)
    (kind : OutboundKind) (latestKey : Option ℕ) :
    Small c (ep.prepareSend usage session frame kind latestKey) := by
  unfold Endpoint.prepareSend
  split
  · exact h
  rename_i target bytes hp
  split
  · exact h
  obtain ⟨rfl, ha⟩ := admitted_of_prepare hp
  obtain ⟨route, hr, -, rfl⟩ := ha.route
  obtain ⟨peer, ht⟩ := h.shared.routes session route hr
  have hl : Light c bytes := by
    have hfi := ha.target_fits
    rw [ht, exceedsTarget, decide_eq_false_iff_not] at hfi
    have hs := hroom.small
    unfold Light encryptedUdpWireOverhead headerLen smallPayload cookieLen at *
    omega
  refine ⟨h.sent, h.slots, h.shared, h.receiver, fun f hf => ?_⟩
  rcases List.mem_append.mp hf with hf | hf
  · exact h.offers f hf
  · rw [List.mem_singleton.mp hf]
    exact hl

theorem enqueue (h : Small c ep) (ho : Light c o.bytes) (peer : SocketAddr) :
    Small c (ep.enqueue peer o) := by
  unfold Endpoint.enqueue
  split_ifs
  · refine ⟨h.sent, h.slots, h.shared, fun a o' ho' => ?_, h.offers⟩
    rcases List.mem_append.mp ho' with ho' | ho'
    · exact h.receiver a o' ho'
    · cases List.mem_singleton.mp ho'
      exact ho
  · exact h

theorem offer (hroom : Roomy setup c) (h : Small c ep) (index : ℕ) : Small c (ep.offer index) := by
  unfold Endpoint.offer
  split
  · exact h
  rename_i f hf
  have hl : Light c f.bytes := h.offers f (List.mem_of_getElem? hf)
  have he : Small c { ep with offers := ep.offers.eraseIdx index } :=
    h.frame rfl rfl h.shared (fun _ hx => hx) fun _ hg => List.mem_of_mem_eraseIdx hg
  have hs : ∀ slot (latestKeys : List (Handle × ℕ × ℕ)) (nextSlot : ℕ), Carried c
      { ep.shared with
        latestSlots := ep.shared.latestSlots.insert slot f.bytes
        latestKeys := latestKeys
        nextSlot := nextSlot } := fun slot _ _ => by
    refine ⟨h.shared.config, h.shared.routes, fun slot' bytes hb => ?_⟩
    rw [lookup_insert_ite] at hb
    split_ifs at hb
    · cases hb; exact hl
    · exact h.shared.slots slot' bytes hb
  dsimp only
  split
  · exact he.enqueue hl _
  split
  · exact he.withShared (hs _ _ _)
  split_ifs
  · refine enqueue (he.withShared (hs _ _ _)) ?_ _
    have hsm := hroom.small
    unfold Light smallPayload at *
    simp only [List.length_nil]
    omega
  · exact he

theorem authDecide (h : Small c ep) (session : Handle) (accepted : Bool) :
    Small c (ep.authDecide session accepted) := by
  unfold Endpoint.authDecide
  split
  · exact h
  rename_i route hr
  split_ifs
  · have hd : ∃ peer, { route with authDecision := false }.target =
        .udp peer (c.maxDatagramSize - encryptedUdpWireOverhead) :=
      h.shared.routes session route hr
    exact h.withShared (h.shared.insert hd rfl rfl rfl)
  · exact h

theorem command (h : Small c ep) (session : Handle) (cmd : SecurityCommand) :
    Small c (ep.command session cmd) := by
  rcases ep.command_cases session cmd with hc | hc <;> rw [hc]
  · exact h
  · exact h.withShared (h.shared.frame rfl (.refl _) (.refl _))

/-- **A step of the endpoint.** Whatever comes next, what is sent and what is kept for sending fits.
-/
theorem step (hkind : setup.kind = .udp) (hroom : Roomy setup c) (laws : N.CipherLaws)
    (sizes : N.HandshakeSizes) (h : Small c ep) (input : Input N) :
    Small c (step setup ep input) := by
  have hg : ∀ {enabled : Bool} {ep' : Endpoint N}, Small c ep' →
      Small c (if enabled then ep' else ep) := by
    intro enabled ep' h'
    split_ifs
    · exact h'
    · exact h
  cases input with
  | datagram call packet kcp => exact hg (h.datagram hkind call packet kcp)
  | serve call => exact hg (h.serve hkind hroom laws sizes call)
  | outbound call => exact hg (h.outbound laws call)
  | cleanup => exact hg h.cleanup
  | connectTimeout now => exact hg (h.connectTimeout now)
  | retryCandidate call conv rebound => exact hg (h.retryCandidate hkind hroom call conv rebound)
  | reclaim call => exact hg (h.put (sized_reclaim (h.view call.peer) call.now))
  | driveServer call =>
    exact hg (h.put (sized_driveServer hroom laws (h.view call.peer) (ep.answer call)))
  | flushDeferred call =>
    exact hg (h.put (sized_flushDeferred laws (h.view call.peer) (ep.answer call)))
  | retry call => exact hg (h.retryPeer call)
  | prepareSend usage session frame kind latestKey =>
    exact h.prepareSend hroom usage session frame kind latestKey
  | offer index => exact h.offer hroom index
  | closeSession session reason => exact h.withShared (h.shared.close ..)
  | authDecide session accepted => exact h.authDecide session accepted
  | command session cmd => exact h.command session cmd

end Small

/-! ### Runs -/

theorem carried_initial (c : RuntimeConfig) : Carried c (.initial c) := by
  refine ⟨rfl, fun session route h => ?_, fun slot bytes h => ?_⟩
  · have hn : (Shared.initial c).sessions.lookup session = none := AList.lookup_empty session
    rw [hn] at h
    cases h
  · have hn : (Shared.initial c).latestSlots.lookup slot = none := AList.lookup_empty slot
    rw [hn] at h
    cases h

theorem small_server (c : RuntimeConfig) : Small c (Endpoint.server c : Endpoint N) where
  sent _ _ h := by cases h
  slots a := by
    have he : (Endpoint.server c : Endpoint N).slot a = .empty N := by
      rw [Endpoint.slot, Endpoint.server, AList.lookup_empty]
      rfl
    rw [he]
    exact ⟨fun _ h => (by cases h), fun _ _ h => (by cases h), fun _ h => (by cases h), trivial⟩
  shared := carried_initial c
  receiver _ _ h := by cases h
  offers _ h := by cases h

theorem carried_client (hkind : setup.kind = .udp) (c : RuntimeConfig) (peer : SocketAddr) :
    Carried c ((Shared.initial c).insertSessionRoute (clientRoute setup c peer)).1 := by
  refine (carried_initial c).insertSessionRoute ⟨peer, ?_⟩
  simp only [clientRoute, acceptedRoute, hkind, reduceCtorEq, if_false]

theorem small_client (hkind : setup.kind = .udp) (hroom : Roomy setup c) (call : Call N) (conv : ℕ)
    (candidates : List SocketAddr) (deadline : Option Instant) :
    Small c (Endpoint.client setup c call conv candidates deadline) := by
  unfold Endpoint.client
  extract_lets start ep l
  have he : Small c ep :=
    (small_server c).frame rfl rfl (carried_client hkind c call.peer) (fun _ hx => hx) fun _ hf => hf
  have hh : Sized c l :=
    sized_sendClientHello hkind hroom (he.view call.peer) (ep.answer call) conv
  have hj : Sized c (setPeer l (some (.clientHello 1 call.now))) :=
    ⟨hh.fits.setPeer _, trivial⟩
  exact he.put hj

theorem sent_client (hkind : setup.kind = .udp) (hli : c.Limits) (call : Call N) (conv : ℕ)
    (candidates : List SocketAddr) (deadline : Option Instant) :
    (Endpoint.client setup c call conv candidates deadline).shared.config = c ∧
    ∀ a bytes, (a, bytes) ∈ (Endpoint.client setup c call conv candidates deadline).sent →
      bytes.length ≤ c.maxDatagramSize := by
  have hu : setup.kind ≠ .kcp := by rw [hkind]; nofun
  unfold Endpoint.client
  extract_lets start ep l
  have hl : l = (sendReliable setup (ep.answer call) (ep.view call.peer) ⟨.clientHello, 0, []⟩
      128).1 := by
    change (Endpoint.sendClientHello setup (ep.answer call) (ep.view call.peer) conv).1 = _
    unfold Endpoint.sendClientHello
    rw [if_neg hu]
  have he : Small c ep :=
    (small_server c).frame rfl rfl (carried_client hkind c call.peer) (fun _ hx => hx) fun _ hf => hf
  have hv : Wired c.maxDatagramSize (ep.view call.peer) := (he.view call.peer).fits.wire
  have hwi : Wired c.maxDatagramSize l := by
    rw [hl]
    exact hv.sendReliable setup _ fun _ => hli.datagram_ge
  have hs : l.shared = ep.shared := by
    rw [hl]
    exact (sameDriver_sendReliable ..).shared
  refine ⟨?_, fun a bytes hb => ?_⟩
  · change l.shared.config = c
    rw [hs]
    exact (carried_client hkind c call.peer).config
  · obtain ⟨bytes', hb', heq⟩ := List.mem_map.mp (show (a, bytes) ∈ l.sent.map _ from hb)
    cases heq
    exact hwi.sent _ hb'

/-- **Datagrams fit.** A UDP endpoint whose datagram size has room for the records of fixed size, and
for the challenge and the join payload of a client, sends no datagram above the datagram size. -/
theorem udp_datagrams_fit (laws : N.CipherLaws) (sizes : N.HandshakeSizes) {setup : Setup N}
    (hkind : setup.kind = .udp) {ep : Endpoint N}
    (h : (machine setup).Reach (fun ep _ => roomy setup ep.shared.config = true) ep) :
    ∀ a bytes, (a, bytes) ∈ ep.sent → bytes.length ≤ ep.shared.config.maxDatagramSize := by
  -- before its first step an endpoint has sent a hello at most, which needs no room
  let I (ep : Endpoint N) : Prop :=
    (∀ a bytes, (a, bytes) ∈ ep.sent → bytes.length ≤ ep.shared.config.maxDatagramSize) ∧
      (roomy setup ep.shared.config = true → Small ep.shared.config ep)
  refine (Machine.Reach.invariant (I := I) ?_ ?_ h).1
  · rintro ep ⟨c, room, hv, -, rfl | ⟨call, conv, candidates, deadline, -, rfl⟩⟩
    · exact ⟨(small_server c).sent, fun _ => small_server c⟩
    obtain ⟨hc, hse⟩ := sent_client hkind (RuntimeConfig.limits_of_validate hv) call
      conv candidates deadline
    simp only [I, hc]
    exact ⟨hse, fun hr => small_client hkind (.of_roomy hr) call conv candidates deadline⟩
  · rintro ep input ⟨-, hsm⟩ hr
    have hs := (hsm hr).step hkind (.of_roomy hr) laws sizes input
    have hc : (Worker.step setup ep input).shared.config = ep.shared.config :=
      hs.shared.config
    change (∀ a bytes, (a, bytes) ∈ (Worker.step setup ep input).sent → _) ∧ _
    rw [show ((machine setup).step ep input).shared.config = ep.shared.config from hc]
    exact ⟨hs.sent, fun _ => hs⟩

/-! ### Two joins -/

theorem udp_datagrams_fit_joined :
    (joined .udp .production).sent.length = 3 ∧
      ∀ a bytes, (a, bytes) ∈ (joined .udp .production).sent → bytes.length ≤ 1200 := by
  refine ⟨by decide +kernel, ?_⟩
  have hr : (machine (server .udp)).Reach
      (fun ep _ => roomy (server .udp) ep.shared.config = true) (joined .udp .production) :=
    Machine.reach_run _ (.start ⟨.production, 3600000, by decide, rfl, .inl rfl⟩) (by decide +kernel)
  have hf := udp_datagrams_fit cipherLaws_tagNoise handshakeSizes_tagNoise rfl hr
  rwa [show (joined .udp .production).shared.config.maxDatagramSize = 1200 by decide +kernel] at hf

def guest (len : ℕ) : Setup tagNoise :=
  ⟨1, .udp, .adaptiveClient (List.replicate len 7), some ⟨(3 : UInt64), fun _ => true⟩⟩

def answered (len : ℕ) : Endpoint tagNoise :=
  let call : Call tagNoise := calm home 0 (5 : UInt64)
  (machine (guest len)).run (.client (guest len) .production call 1 [] none)
    (arrive .udp call (recordBytes ⟨.serverHello, 0, SecurityMode.encrypted.toByte ::
        tagNoise.publicKey (7 : UInt64)⟩) ++
      arrive .udp call (recordBytes ⟨.handshake, 0, tagNoise.response (7 : UInt64) (9 : UInt64)
        (tagNoise.first (3 : UInt64) (5 : UInt64))⟩))

/-- **The finish of a long join payload is oversized.** Under the default limits a join payload that
`connect` accepts is sent in a datagram above the datagram size, and what the server's receive buffer
keeps of it is no record. -/
theorem oversized_finish :
    RuntimeConfig.production.validate 3600000 = .ok () ∧
      (guest 1136).openEndpoint .production = .ok () ∧
      (answered 1136).sent.map (fun s => s.2.length) = [20, 52, 1220] ∧
      ((answered 1136).sent.map fun s => (decodeRecord (s.2.take (1200 + 1)) 1200).isOk) =
        [true, true, false] := by
  decide +kernel

end Rnet.Transport.DatagramSizes
