import Mathlib.Logic.Function.Basic
import Rnet.Transport.Joining
import Rnet.Transport.SealedOps
import Rnet.Transport.SlotCases

/-! # The nonces of datagram sessions

A world is an endpoint and, for every address, the ledger of the transports its sessions use; a step
of the endpoint enters the operations it performs. Every protected record on the wire is the answer
of one of them, and what is sent again was sent before. -/

namespace Rnet.Transport.Nonces

open Rnet.Core Lib.BigEndian Lib.GuardedRun Protocol.Records Security.Cipher Security.Controller
open Security.NonceLedger Security.TagNoise Codec Config Slots Wire Process Maintenance
open KcpPreflight Worker Emissions SealedOps Joining
open Protocol.Framing (frameOf)

variable {N : Noise}

/-! ### Worlds -/

def operations (setup : Setup N) (ep : Endpoint N) : Input N → Option (SocketAddr × List (Op N))
  | .serve call =>
    if ep.alive then
      match ep.inbox with
      | [] => none
      | (a, bytes) :: _ =>
        some (a, receiveOps setup (ep.answer { call with peer := a }) (ep.view a) bytes)
    else none
  | .outbound _ =>
    if ep.idle then
      match ep.receiver with
      | [] => none
      | (a, o) :: _ =>
        if ep.deferredCount < ep.shared.config.writeQueueCapacity then
          some (a, takeOps (ep.view a) o)
        else none
    else none
  | .driveServer call =>
    if ep.idle then some (call.peer, driveOps (ep.answer call) (ep.view call.peer)) else none
  | .flushDeferred call =>
    if ep.idle then some (call.peer, flushOps (ep.view call.peer)) else none
  | _ => none

structure World (N : Noise) where
  ep : Endpoint N
  ledger : SocketAddr → Ledger N

def enter (ledger : SocketAddr → Ledger N) :
    Option (SocketAddr × List (Op N)) → SocketAddr → Ledger N
  | none => ledger
  | some (a, ops) => Function.update ledger a ((ledger a).perform ops)

def step (setup : Setup N) (w : World N) (input : Input N) : World N where
  ep := Worker.step setup w.ep input
  ledger := enter w.ledger (operations setup w.ep input)

def machine (setup : Setup N) : Machine (World N) (Input N) where
  init w := (Worker.machine setup).init w.ep ∧ w.ledger = fun _ => .blank N
  step := step setup

/-! ### Runs -/

/-- What the wire has of an address between two steps. -/
def held (s : Slot N) : Outbox := ⟨[], s.pending, s.seen, s.engine⟩

/-- The ledgers account for an endpoint. -/
structure Reconciled (slot : SocketAddr → Slot N) (sent : List (SocketAddr × Bytes))
    (ledger : SocketAddr → Ledger N) : Prop where
  /-- every ledger is sound -/
  sound : ∀ a, (ledger a).Sound
  /-- and ends with the transport its session holds -/
  peer : ∀ a, Agrees (ledger a) (slot a).peer
  /-- protected records on the wire were sealed by a call -/
  wire : ∀ d ∈ sent, Accounted (ledger d.1).calls d.2
  queued : ∀ a, ∀ b ∈ (held (slot a)).queued, Accounted (ledger a).calls b
  /-- what may be sent again was sent -/
  keeps : ∀ a b, (held (slot a)).Keeps b → (a, b) ∈ sent

variable {ep : Endpoint N} {ledger : SocketAddr → Ledger N} {a : SocketAddr} {l : Local N}

theorem Reconciled.put (h : Reconciled ep.slot ep.sent ledger)
    (ha : ledger' a = (ledger a).perform ops) (he : ∀ b, b ≠ a → ledger' b = ledger b)
    (hf : Follows (ledger a) ops (outbox (ep.view a)) l) :
    Reconciled (ep.put a l).slot (ep.put a l).sent ledger' := by
  obtain ⟨more, hs, hm, hk⟩ := hf.emits.sent
  have hc : ∀ b, (ledger b).calls ⊆ (ledger' b).calls := by
    intro b
    by_cases hb : b = a
    · rw [hb, ha]
      exact Ledger.calls_subset_perform _ _
    · rw [he b hb]
      exact List.Subset.refl _
  have hal : (ep.put a l).sent = ep.sent ++ more.map fun bytes => (a, bytes) := by
    have hl : l.sent = more := hs
    unfold Endpoint.put
    rw [hl]
  refine ⟨fun b => ?_, fun b => ?_, fun d hd => ?_, fun b bytes hb => ?_, fun b bytes hb => ?_⟩
  · by_cases hb : b = a
    · rw [hb, ha]
      exact (h.sound a).perform ops
    · rw [he b hb]
      exact h.sound b
  · rw [Endpoint.slot_put]
    split
    · rename_i hb
      rw [hb, ha]
      exact hf.peer
    · rename_i hb
      rw [he b hb]
      exact h.peer b
  · rw [hal] at hd
    rcases List.mem_append.mp hd with hd | hd
    · exact (h.wire d hd).mono (hc d.1)
    obtain ⟨bytes, hby, rfl⟩ := List.mem_map.mp hd
    rcases hm bytes hby with hb | hb
    · rw [ha]
      exact hb
    · exact (h.wire _ (h.keeps a bytes hb)).mono (hc a)
  · rw [Endpoint.slot_put] at hb
    split at hb
    · rename_i hb'
      rw [hb', ha]
      rcases hf.emits.queued bytes hb with hb | hb
      · exact hb
      · exact (h.queued a bytes hb).mono (Ledger.calls_subset_perform _ _)
    · rename_i hb'
      rw [he b hb']
      exact h.queued b bytes hb
  · rw [hal]
    rw [Endpoint.slot_put] at hb
    split at hb
    · rename_i hb'
      rw [hb']
      rcases hk bytes hb with hb | hb
      · exact List.mem_append_left _ (h.keeps a bytes hb)
      · exact List.mem_append_right _ (List.mem_map_of_mem hb)
    · exact List.mem_append_left _ (h.keeps b bytes hb)

theorem Reconciled.idle (h : Reconciled ep.slot ep.sent ledger)
    (hp : l.slot.peer = (ep.slot a).peer ∨ transportOf l.slot.peer = none)
    (he : Emits (Accounted (ledger a).calls) (outbox (ep.view a)) (outbox l)) :
    Reconciled (ep.put a l).slot (ep.put a l).sent ledger := by
  have hf : Follows (ledger a) [] (outbox (ep.view a)) l := by
    refine ⟨?_, he⟩
    rcases hp with hp | hp
    · rw [hp]
      exact h.peer a
    · exact .of_none hp
  exact h.put rfl (fun _ _ => rfl) hf

theorem Reconciled.perform (h : Reconciled ep.slot ep.sent ledger)
    (hf : Agrees (ledger a) (ep.slot a).peer → Follows (ledger a) ops (outbox (ep.view a)) l) :
    Reconciled (ep.put a l).slot (ep.put a l).sent (enter ledger (some (a, ops))) :=
  h.put (Function.update_self ..) (fun _ hb => Function.update_of_ne hb ..) (hf (h.peer a))

section Steps

variable {setup : Setup N} {ep : Endpoint N} {ledger : SocketAddr → Ledger N}

variable (h : Reconciled ep.slot ep.sent ledger)
include h

theorem reconciled_datagram (call : Call N) (packet : Bytes) (kcp : KcpInput) :
    Reconciled (ep.datagram setup call packet kcp).slot
      (ep.datagram setup call packet kcp).sent ledger := by
  have hpr := emits_handlePreflight (F := Accounted (ledger call.peer).calls) setup
    (ep.answer call) (ep.view call.peer) (fun _ => accounted_plain _)
    (fun _ _ => accounted_preflight _ _)
    (fun _ _ => accounted_preflight _ _) ep.remote packet
  have hp := (sameDriver_handlePreflight setup ep.remote (ep.answer call) (ep.view call.peer)
    packet).peer
  unfold Endpoint.datagram
  dsimp only
  split <;> rename_i heq <;> rw [heq] at hpr hp
  · exact h.idle (.inl hp) hpr
  · exact h.idle (.inl hp) hpr
  rename_i l
  split
  · have hk := hpr.trans (emits_receiveKcp (ep.answer call) l kcp)
    have hp' := (sameDriver_receiveKcp (ep.answer call) l kcp).peer.trans hp
    split <;> rename_i he' <;> rw [he'] at hk hp'
    · exact h.idle (.inl hp') hk
    rename_i l' delivered
    have he : Reconciled (ep.put call.peer (Endpoint.endPreflight l')).slot
        (ep.put call.peer (Endpoint.endPreflight l')).sent ledger := by
      unfold Endpoint.endPreflight
      split
      · exact h.idle (.inl hp') hk
      · exact h.idle (.inl hp') hk
    exact he
  · exact h.idle (.inl hp) hpr

theorem reconciled_retryCandidate (call : Call N) (conv : ℕ) (rebound : Bool) :
    Reconciled (ep.retryCandidate setup call conv rebound).slot
      (ep.retryCandidate setup call conv rebound).sent ledger := by
  unfold Endpoint.retryCandidate
  split
  · rename_i current next rest _ _
    split
    · exact h
    rename_i session _
    have ha : Reconciled (ep.abandon current rest).slot (ep.abandon current rest).sent
        ledger := h.idle (.inr rfl) (emits_removePeer (setPeer (ep.view current) none))
    split
    · exact ha
    unfold Endpoint.approach
    dsimp only
    split
    · exact ha
    rename_i shared _
    have hh := emits_sendClientHello (F := Accounted (ledger next).calls) setup
      (({ ep.abandon current rest with shared := shared } : Endpoint N).answer
        { call with peer := next })
      (({ ep.abandon current rest with shared := shared } : Endpoint N).view next)
          (fun _ => accounted_plain _)
      (fun _ _ => accounted_preflight _ _) conv
    have hp := (Steps.sameDriver_sendClientHello setup
      (({ ep.abandon current rest with shared := shared } : Endpoint N).answer
        { call with peer := next })
      (({ ep.abandon current rest with shared := shared } : Endpoint N).view next) conv).peer
    split <;> rename_i he <;> rw [he] at hh hp
    · exact ha.idle (.inl hp) hh
    · exact ha.idle (.inr rfl) hh
  · exact h

theorem reconciled_retry (call : Call N) :
    Reconciled (ep.retryPeer setup call).slot (ep.retryPeer setup call).sent ledger := by
  have hr := emits_retry (F := Accounted (ledger call.peer).calls) setup (ep.answer call)
    (ep.view call.peer)
  have hp := (sameDriver_retry setup (ep.answer call) (ep.view call.peer)).peer
  unfold Endpoint.retryPeer
  dsimp only
  split <;> rename_i heq <;> rw [heq] at hr hp
  · exact h.idle (.inl hp) hr
  rename_i l
  have he := hr.trans (emits_expirePeer call l ep.remote)
  have hg : (expirePeer ep.remote call l).1.slot.peer = none := by
    unfold expirePeer
    split
    · assumption
    split
    · rfl
    · split <;> rfl
  split <;> rename_i he' <;> rw [he'] at he hg
  · exact h.idle (.inr (congrArg transportOf hg)) he
  · exact h.idle (.inr (congrArg transportOf hg)) he

theorem reconciled_of_same {ep' : Endpoint N} (hs : ep'.slots = ep.slots) (hse : ep'.sent = ep.sent) :
    Reconciled ep'.slot ep'.sent ledger := by
  have hsl : ep'.slot = ep.slot := by
    funext a
    unfold Endpoint.slot
    rw [hs]
  rw [hsl, hse]
  exact h

/-- **A step** keeps the ledgers and the endpoint reconciled. -/
theorem reconciled_step (input : Input N) :
    Reconciled (Worker.step setup ep input).slot (Worker.step setup ep input).sent
      (enter ledger (operations setup ep input)) := by
  cases input with
  | datagram call packet kcp =>
    dsimp only [Worker.step]
    split
    · exact reconciled_datagram h call packet kcp
    · exact h
  | serve call =>
    dsimp only [Worker.step, operations]
    split
    · unfold Endpoint.serve
      cases hi : ep.inbox with
      | nil => exact h
      | cons d rest =>
        obtain ⟨a, bytes⟩ := d
        have hs := h.perform fun hp => follows_receiveRecord (l := ep.view a) setup
          (ep.answer { call with peer := a }) hp ep.remote ep.initialSession bytes
        dsimp only
        split
        · exact hs
        · exact hs
    · exact h
  | outbound call =>
    dsimp only [Worker.step, operations]
    split
    · unfold Endpoint.outbound
      cases hr : ep.receiver with
      | nil => exact h
      | cons d rest =>
        obtain ⟨a, o⟩ := d
        dsimp only
        split
        · exact h.perform fun hp => follows_takeOutbound setup
            (ep.answer { call with peer := a }) hp o
        · exact h
    · exact h
  | cleanup =>
    dsimp only [Worker.step]
    split
    · unfold Endpoint.cleanup
      split
      · exact h
      rename_i request rest _
      have hc : Reconciled ({ ep with shared := { ep.shared with cleanup := rest } } :
        Endpoint N).slot ep.sent ledger := h
      refine hc.idle ?_ (emits_cleanupPeer _ request.session)
      unfold cleanupPeer
      dsimp only
      split_ifs
      · exact .inl rfl
      · exact .inr rfl
    · exact h
  | connectTimeout now =>
    dsimp only [Worker.step]
    split
    · unfold Endpoint.connectTimeout
      split
      · exact h
      split
      · exact h
      dsimp only
      split
      · split
        · exact h
        · exact h
      · exact h
    · exact h
  | retryCandidate call conv rebound =>
    dsimp only [Worker.step]
    split
    · exact reconciled_retryCandidate h call conv rebound
    · exact h
  | reclaim call =>
    dsimp only [Worker.step]
    split
    · refine h.idle (.inl ?_) (emits_reclaim (ep.view call.peer) call.now)
      unfold Endpoint.reclaim
      dsimp only
      split <;> rfl
    · exact h
  | driveServer call =>
    dsimp only [Worker.step, operations]
    split
    · exact h.perform fun hp => follows_driveServer setup (ep.answer call) hp
    · exact h
  | flushDeferred call =>
    dsimp only [Worker.step, operations]
    split
    · exact h.perform fun hp => follows_flushDeferred setup (ep.answer call) hp
    · exact h
  | retry call =>
    dsimp only [Worker.step]
    split
    · exact reconciled_retry h call
    · exact h
  | prepareSend usage session frame kind latestKey =>
    dsimp only [Worker.step]
    unfold Endpoint.prepareSend
    split
    · exact h
    · split <;> exact h
  | offer index =>
    refine reconciled_of_same h (SlotCases.frame_offer ep index).1 ?_
    dsimp only [Worker.step]
    unfold Endpoint.offer
    split
    · rfl
    dsimp only
    unfold Endpoint.enqueue
    split
    · split <;> rfl
    split
    · rfl
    · split <;> rfl
  | closeSession session reason => exact h
  | authDecide session accepted =>
    dsimp only [Worker.step]
    unfold Endpoint.authDecide
    split
    · exact h
    · split <;> exact h
  | command session cmd =>
    dsimp only [Worker.step]
    rcases ep.command_cases session cmd with hc | hc <;> rw [hc] <;> exact h

end Steps

theorem reconciled_of_init {w : World N} (h : (machine setup).init w) :
    Reconciled w.ep.slot w.ep.sent w.ledger := by
  obtain ⟨ep, ledger⟩ := w
  obtain ⟨⟨config, room, -, -, hst⟩, rfl⟩ := h
  have hs : ∀ (ep : Endpoint N), ep.slots = ∅ → ep.sent = [] →
      Reconciled ep.slot ep.sent fun _ => Ledger.blank N := by
    intro ep hsl hsen
    have hslo : ep.slot = fun _ => .empty N := by
      funext a
      unfold Endpoint.slot
      rw [hsl]
      rfl
    rw [hslo, hsen]
    refine ⟨fun _ => Ledger.sound_blank, fun _ => .of_none rfl, nofun, nofun, fun a b hb => ?_⟩
    rcases hb with ⟨p, hp, -⟩ | ⟨request, hse⟩
    · cases hp
    · cases hse
  rcases hst with rfl | ⟨call, conv, candidates, deadline, -, rfl⟩
  · exact hs _ rfl rfl
  unfold Endpoint.client
  extract_lets start ep l
  refine (hs ep rfl rfl).idle (.inr rfl) ?_
  exact emits_sendClientHello setup (ep.answer call) (ep.view call.peer) (fun _ => accounted_plain _)
    (fun _ _ => accounted_preflight _ _) conv

theorem reconciled_run (h : (machine setup).Reach (fun _ _ => True) w) :
    Reconciled w.ep.slot w.ep.sent w.ledger :=
  h.invariant (I := fun w => Reconciled w.ep.slot w.ep.sent w.ledger)
    (fun _ => reconciled_of_init) fun _ input hw _ => reconciled_step hw input

theorem sent_retry (setup : Setup N) (ep : Endpoint N) (call : Call N) :
    (Worker.step setup ep (.retry call)).sent = ep.sent ∨
      ∃ p, (ep.slot call.peer).pending = some p ∧
        (Worker.step setup ep (.retry call)).sent = ep.sent ++ [(call.peer, p.bytes)] := by
  dsimp only [Worker.step]
  split
  · have hr : (retry setup (ep.answer call) (ep.view call.peer)).1.sent = [] ∨
        ∃ p, (ep.slot call.peer).pending = some p ∧
          (retry setup (ep.answer call) (ep.view call.peer)).1.sent = [p.bytes] := by
      unfold retry
      split
      · exact .inl rfl
      split
      · exact .inl rfl
      rename_i p hp
      split
      · exact .inl rfl
      split
      · exact .inl rfl
      unfold sendTo
      split
      · exact .inr ⟨p, hp, rfl⟩
      · exact .inl rfl
    have hpu : ∀ l : Local N, l.sent = [] ∨ (∃ p, (ep.slot call.peer).pending = some p ∧
        l.sent = [p.bytes]) → (ep.put call.peer l).sent = ep.sent ∨
          ∃ p, (ep.slot call.peer).pending = some p ∧
            (ep.put call.peer l).sent = ep.sent ++ [(call.peer, p.bytes)] := by
      intro l hl
      unfold Endpoint.put
      rcases hl with hl | ⟨p, hp, hl⟩
      · rw [hl]
        exact .inl (List.append_nil _)
      · rw [hl]
        exact .inr ⟨p, hp, rfl⟩
    unfold Endpoint.retryPeer
    dsimp only
    split <;> rename_i heq <;> rw [heq] at hr
    · exact hpu _ hr
    rename_i l
    have he : (expirePeer ep.remote call l).1.sent = l.sent := by
      unfold expirePeer
      split
      · rfl
      split
      · rfl
      · split <;> rfl
    rw [← he] at hr
    split <;> rename_i he' <;> rw [he'] at hr <;> exact hpu _ hr
  · exact .inl rfl

/-- **Nonces never repeat.** In every run of a datagram endpoint and for every address:

* two calls of `encrypt` that reached the cipher under the same number of the outgoing key and the same
  nonce are the same call, so no two plaintexts share key generation and nonce;
* all calls under one number were made with the one outgoing key of that number, which is the key a
  handshake computed or the rekey of the key before it, so that a counter starts again only with a key
  change;
* the nonces of a key increase, no counter passes the end of its range, and a call answers with what the
  cipher made of its key, nonce and plaintext, or fails if it finds the counter at its end;
* the ledger is that of the transport the session holds, its last key the outgoing key, and every
  protected record given to the socket or to the KCP engine is the answer of a recorded call;
* what is kept for retransmission was sent before, and a retransmission makes no call and sends the kept
  bytes. -/
theorem nonces_never_repeat (setup : Setup N) {w : World N}
    (h : (machine setup).Reach (fun _ _ => True) w) :
    (∀ (a : SocketAddr) (i j : ℕ) (x y : Sealing N), (w.ledger a).calls[i]? = some x →
      (w.ledger a).calls[j]? = some y → x.Reserved → x.generation = y.generation →
      x.nonce = y.nonce → i = j) ∧
    (∀ a, ∀ x ∈ (w.ledger a).calls,
      ∃ k, (w.ledger a).keys[x.generation]? = some k ∧ k.key = x.key) ∧
    (∀ (a : SocketAddr) (n : ℕ) (k : OutgoingKey N), (w.ledger a).keys[n]? = some k →
      k.Derived ((w.ledger a).keys.take n).getLast?) ∧
    (∀ a, (w.ledger a).calls.Pairwise Sealing.Before ∧ ∀ x ∈ (w.ledger a).calls, x.Answered) ∧
    (∀ a t, transportOf (w.ep.slot a).peer = some t →
      (w.ledger a).transport = some t ∧ t.sendNonce ≤ u64Max ∧
        ∃ k, (w.ledger a).keys.getLast? = some k ∧ k.key = t.outKey) ∧
    (∀ a b, (a, b) ∈ w.ep.sent → Accounted (w.ledger a).calls b) ∧
    (∀ a e, (w.ep.slot a).engine = some e → ∀ b ∈ e.queued, Accounted (w.ledger a).calls b) ∧
    (∀ a p, (w.ep.slot a).pending = some p → (a, p.bytes) ∈ w.ep.sent) ∧
    (∀ a seen b, (w.ep.slot a).seen = some seen → seen.response = some b → (a, b) ∈ w.ep.sent) ∧
    ∀ call, (step setup w (.retry call)).ledger = w.ledger ∧
      ((step setup w (.retry call)).ep.sent = w.ep.sent ∨
        ∃ p, (w.ep.slot call.peer).pending = some p ∧
          (step setup w (.retry call)).ep.sent = w.ep.sent ++ [(call.peer, p.bytes)]) := by
  have hr := reconciled_run h
  refine ⟨fun a i j x y hx hy hre hg hn => ?_, fun a => (hr.sound a).keyed,
    fun a => (hr.sound a).derived, fun a => ?_, fun a t ht => ?_,
    fun a b hb => hr.wire (a, b) hb, fun a e he b hb => ?_, fun a p hp => ?_,
    fun a seen b hs hb => ?_, fun call => ⟨rfl, sent_retry setup w.ep call⟩⟩
  · exact (hr.sound a).unique hx hy hre hg hn
  · exact ⟨(hr.sound a).ordered, (hr.sound a).answered⟩
  · have ha := hr.peer a t ht
    exact ⟨ha, (hr.sound a).counter t ha, (hr.sound a).current t ha⟩
  · refine hr.queued a b ?_
    unfold held
    rw [he]
    exact hb
  · exact hr.keeps a p.bytes (.inl ⟨p, hp, rfl⟩)
  refine hr.keeps a b (.inr ⟨seen.request, ?_⟩)
  obtain ⟨request, response⟩ := seen
  cases hb
  exact hs

/-! ### A session that rekeys -/

def clientControl (t : DatagramTransport tagNoise) (control : Control) : Bytes :=
  match protectedRecord t 1 .control (encodeControl control) 64 with
  | (_, .ok record) => recordBytes record
  | (_, .error _) => []

/-- The server starts a rekey and repeats its proposal, the client goes through it, and a message
follows. -/
def rekeying : World tagNoise :=
  (machine (server .udp)).run ⟨.server .production, fun _ => .blank tagNoise⟩
    (joinInputs .udp visitor home 0 1 ++
      [.command 1 .rekey, .driveServer (calm home 1 (9 : UInt64)),
        .retry (calm home 200 (9 : UInt64))] ++
      arrive .udp (calm home 201 (9 : UInt64))
        (clientControl visitor.clientTransport (.barrier .rekeyReady 2)) ++
      arrive .udp (calm home 202 (9 : UInt64))
        (clientControl visitor.clientTransport.rekeyOutgoing (.barrier .rekeyAck 2)) ++
      [.prepareSend ⟨0, 0⟩ 1 (frameOf 6 [1, 2, 3]) .data none, .offer 0,
        .outbound (calm home 203 (9 : UInt64))])

/-- Decision, proposal and commit take three nonces of the handshake's key, the message the first
nonce of its rekey; the repeated proposal takes none. -/
theorem nonces_never_repeat_rekeying :
    ((rekeying.ledger home).calls.map fun x => (x.generation, x.key, x.nonce)) =
      [(0, ⟨5, 9, 1⟩, 0), (0, ⟨5, 9, 1⟩, 1), (0, ⟨5, 9, 1⟩, 2),
        (1, tagNoise.rekey ⟨5, 9, 1⟩, 0)] ∧
    (∀ (i j : ℕ) (x y : Sealing tagNoise), (rekeying.ledger home).calls[i]? = some x →
      (rekeying.ledger home).calls[j]? = some y → x.Reserved →
      x.generation = y.generation → x.nonce = y.nonce → i = j) ∧
    ∀ (n : ℕ) (k : OutgoingKey tagNoise), (rekeying.ledger home).keys[n]? = some k →
      k.Derived ((rekeying.ledger home).keys.take n).getLast? := by
  have hr : (machine (server .udp)).Reach (fun _ _ => True) rekeying :=
    .run_free (fun _ _ => trivial) _ (.start ⟨⟨.production, 3600000, by decide, rfl, .inl rfl⟩, rfl⟩)
  have hn := nonces_never_repeat (server .udp) hr
  exact ⟨by decide +kernel, hn.1 home, hn.2.2.1 home⟩

end Rnet.Transport.Nonces
