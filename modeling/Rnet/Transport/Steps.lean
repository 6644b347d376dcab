import Rnet.Transport.Moves
import Rnet.Transport.Worker

/-! # What a step of the endpoint can do

`step_cases` is the one place that opens the step function. A step moves one address by a stage and
touches no queue (`Moved`), takes the first message of the write queue, releases a deferred message,
admits a message to the write queue, or lets a joining client try its next address. Invariants of
runs are proved by cases on it. -/

namespace Rnet.Transport.Steps

open Rnet.Core Lib.BigEndian Security.Cipher Config State Slots Wire Process Maintenance KcpPreflight
open Stages Moves Worker

variable {N : Noise}

def stageAt (ep : Endpoint N) (a : SocketAddr) : Stage := stageOf (ep.slot a).peer

/-- The session that an input may establish at an address. -/
def Establishing (ep : Endpoint N) (input : Input N) (a : SocketAddr) (session : Handle) : Prop :=
  match input with
  | .serve _ => (ep.inbox.head?.map Prod.fst) = some a ∧
    clientAwaiting (ep.slot a).peer = some session
  | .driveServer call => call.peer = a ∧ serverAwaiting (ep.slot a).peer = some session ∧
    ep.shared.authDecisions.lookup session = some true
  | _ => False

/-- An address keeps its stage and its deferred messages. -/
structure Unmoved (ep ep' : Endpoint N) (b : SocketAddr) : Prop where
  stage : stageAt ep' b = stageAt ep b
  deferred : (ep'.slot b).deferred = (ep.slot b).deferred

variable {ep ep' : Endpoint N}

theorem Unmoved.of_slot (h : ep'.slot b = ep.slot b) : Unmoved ep ep' b :=
  ⟨by rw [stageAt, stageAt, h], by rw [h]⟩

variable {ep₁ : Endpoint N}

theorem Unmoved.trans (h : Unmoved ep₁ ep₂ b) (h' : Unmoved ep₂ ep₃ b) : Unmoved ep₁ ep₃ b :=
  ⟨h'.stage.trans h.stage, h'.deferred.trans h.deferred⟩

/-- One address moves by a stage; queues and history stay. -/
structure Moved (may : Handle → Prop) (a : SocketAddr) (ep ep' : Endpoint N) : Prop where
  elsewhere : ∀ b, b ≠ a → Unmoved ep ep' b
  deferred : (ep'.slot a).deferred = (ep.slot a).deferred ∨ (ep'.slot a).deferred = []
  next : ep.shared.nextSession ≤ ep'.shared.nextSession
  stage : StageMove may ep.shared.nextSession ep'.shared.nextSession (stageAt ep a) (stageAt ep' a)
  receiver : ep'.receiver = ep.receiver
  admitted : ep'.admitted = ep.admitted
  handed : ep'.handed = ep.handed

/-- Equal in everything the cases of a step talk about. -/
structure Alike (ep ep' : Endpoint N) : Prop where
  slots : ep'.slots = ep.slots
  next : ep'.shared.nextSession = ep.shared.nextSession
  receiver : ep'.receiver = ep.receiver
  admitted : ep'.admitted = ep.admitted
  handed : ep'.handed = ep.handed

theorem Alike.slot (h : Alike ep ep') (a : SocketAddr) : ep'.slot a = ep.slot a := by
  rw [Endpoint.slot, Endpoint.slot, h.slots]

variable {may : Handle → Prop} {a : SocketAddr} {ep'' : Endpoint N}

theorem Moved.alike (h : Moved may a ep ep') (h' : Alike ep' ep'') : Moved may a ep ep'' where
  elsewhere b hb := (h.elsewhere b hb).trans (.of_slot (h'.slot b))
  deferred := by rw [h'.slot]; exact h.deferred
  next := by rw [h'.next]; exact h.next
  stage := by rw [h'.next, stageAt, stageAt, h'.slot]; exact h.stage
  receiver := h'.receiver.trans h.receiver
  admitted := h'.admitted.trans h.admitted
  handed := h'.handed.trans h.handed

theorem Moved.before (h : Alike ep ep') (h' : Moved may a ep' ep'') : Moved may a ep ep'' where
  elsewhere b hb := .trans (.of_slot (h.slot b)) (h'.elsewhere b hb)
  deferred := by rw [← h.slot]; exact h'.deferred
  next := by rw [← h.next]; exact h'.next
  stage := by
    have hs := h'.stage
    rwa [h.next, show stageAt ep' a = stageAt ep a by rw [stageAt, stageAt, h.slot]] at hs
  receiver := h'.receiver.trans h.receiver
  admitted := h'.admitted.trans h.admitted
  handed := h'.handed.trans h.handed

theorem Alike.moved (h : Alike ep ep') (a : SocketAddr) : Moved may a ep ep' where
  elsewhere b _ := .of_slot (h.slot b)
  deferred := .inl (by rw [h.slot])
  next := h.next.ge
  stage := by rw [stageAt, stageAt, h.slot]; exact .stay _
  receiver := h.receiver
  admitted := h.admitted
  handed := h.handed

theorem Alike.trans (h : Alike ep₁ ep₂) (h' : Alike ep₂ ep₃) : Alike ep₁ ep₃ :=
  ⟨h'.slots.trans h.slots, h'.next.trans h.next, h'.receiver.trans h.receiver,
    h'.admitted.trans h.admitted, h'.handed.trans h.handed⟩

variable {l : Local N}

theorem Moved.of_served (h : Served may (ep.view a) l) : Moved may a ep (ep.put a l) where
  elsewhere b hb := .of_slot (by rw [Endpoint.slot_put, if_neg hb])
  deferred := by rw [Endpoint.slot_put, if_pos rfl]; exact h.deferred
  next := h.next
  stage := by
    rw [stageAt, stageAt, Endpoint.slot_put, if_pos rfl]
    exact h.stage
  receiver := rfl
  admitted := rfl
  handed := h.handed

theorem alike_fail (ep : Endpoint N) (client : Option Handle) (code : ErrorCode) :
    Alike ep (ep.fail client code) := by
  refine ⟨rfl, ?_, rfl, rfl, rfl⟩
  exact List.foldlRecOn (motive := fun s : Shared => s.nextSession = ep.shared.nextSession) _ _ rfl
    fun s h session _ => (s.nextSession_close session code _).trans h

/-- What a step can do. -/
inductive StepCase (ep : Endpoint N) (input : Input N) (ep' : Endpoint N) : Prop
  /-- one address moves -/
  | moved (a : SocketAddr) (h : Moved (Establishing ep input a) a ep ep')
  /-- the first message of the write queue is taken -/
  | taken (call : Call N) {a : SocketAddr} {o : Outbound} {rest : List (SocketAddr × Outbound)}
    {l : Local N} (hinput : input = .outbound call) (hfirst : ep.receiver = (a, o) :: rest)
    (h : Taken (ep.answer { call with peer := a }) o (ep.view a) l)
    (heq : ep' = { ep.put a l with receiver := rest })
  /-- a deferred message is released -/
  | flushed {call : Call N} {l : Local N} (h : Flushed (ep.answer call) (ep.view call.peer) l)
    (heq : ep' = ep.put call.peer l)
  /-- a message enters the write queue -/
  | queued {index : ℕ} {f : Offer} {o : Outbound} (hinput : input = .offer index)
    (hoffer : ep.offers[index]? = some f) (howner : o.owner = f.session)
    (hticket : o.ticket = ep.admitted.length) (hslots : ep'.slots = ep.slots)
    (hnext : ep'.shared.nextSession = ep.shared.nextSession)
    (hreceiver : ep'.receiver = ep.receiver ++ [(f.peer, o)])
    (hadmitted : ep'.admitted = ep.admitted ++ [o]) (hhanded : ep'.handed = ep.handed)
  /-- a joining client goes on to its next address -/
  | failover {current next : SocketAddr} {session : Handle}
    (hcurrent : stageAt ep current = .joining session)
    (hnext : stageAt ep' next = .joining session)
    (hgone : current ≠ next → stageAt ep' current = .vacant)
    (helse : ∀ b, b ≠ current → b ≠ next → stageAt ep' b = stageAt ep b)
    (hdeferred : ∀ b, (ep'.slot b).deferred = (ep.slot b).deferred)
    (hsession : ep'.shared.nextSession = ep.shared.nextSession)
    (hreceiver : ep'.receiver = ep.receiver) (hadmitted : ep'.admitted = ep.admitted)
    (hhanded : ep'.handed = ep.handed)

variable {input : Input N}

variable (setup : Setup N)

theorem StepCase.of_alike (h : Alike ep ep') : StepCase ep input ep' :=
  .moved ⟨.v4 0, 0⟩ (h.moved _)

theorem StepCase.of_still (h : Still (ep.view a) l) (h' : Alike (ep.put a l) ep') :
    StepCase ep input ep' :=
  .moved a ((Moved.of_served h.served).alike h')

theorem Alike.refl (ep : Endpoint N) : Alike ep ep := ⟨rfl, rfl, rfl, rfl, rfl⟩

/-! ### Received datagrams and records -/

theorem still_endPreflight (l : Local N) : Still l (Endpoint.endPreflight l) := by
  unfold Endpoint.endPreflight
  split_ifs <;> exact ⟨rfl, rfl, .inl rfl, le_rfl⟩

theorem stepCase_datagram (ep : Endpoint N) (input : Input N) (call : Call N) (packet : Bytes)
    (kcp : KcpInput) : StepCase ep input (ep.datagram setup call packet kcp) := by
  have h := sameDriver_handlePreflight setup ep.remote (ep.answer call) (ep.view call.peer) packet
  unfold Endpoint.datagram
  dsimp only
  split <;> rename_i he <;> rw [he] at h
  · exact .of_still (.of_sameDriver h) (alike_fail ..)
  · exact .of_still (.of_sameDriver h) (.refl _)
  rename_i l
  split_ifs
  · have hk := h.trans (sameDriver_receiveKcp (ep.answer call) l kcp)
    split <;> rename_i he' <;> rw [he'] at hk
    · exact .of_still (.of_sameDriver hk) (.refl _)
    · exact .of_still ((Still.of_sameDriver hk).trans (still_endPreflight _))
        ⟨rfl, rfl, rfl, rfl, rfl⟩
  · exact .of_still (.of_sameDriver h) ⟨rfl, rfl, rfl, rfl, rfl⟩

theorem stepCase_serve (ep : Endpoint N) (call : Call N) :
    StepCase ep (.serve call) (ep.serve setup call) := by
  unfold Endpoint.serve
  split
  · exact .of_alike (.refl ep)
  rename_i a bytes rest hi
  have h := served_receiveRecord setup ep.remote ep.initialSession
    (ep.answer { call with peer := a }) (ep.view a) bytes
  dsimp only
  generalize receiveRecord setup ep.remote ep.initialSession (ep.answer { call with peer := a })
    (ep.view a) bytes = served at h
  have hm : Moved (Establishing ep (.serve call) a) a ep (ep.put a served.1) := by
    refine .of_served ⟨h.handed, h.deferred, h.next, ?_⟩
    refine h.stage.imp fun session hs => ⟨?_, hs⟩
    rw [hi]; rfl
  have hp : Alike (ep.put a served.1) { ep.put a served.1 with inbox := rest } :=
    ⟨rfl, rfl, rfl, rfl, rfl⟩
  split
  · exact .moved a (hm.alike hp)
  · exact .moved a (hm.alike (hp.trans (alike_fail ..)))

/-! ### Timers -/

theorem stepCase_cleanup (ep : Endpoint N) (input : Input N) : StepCase ep input ep.cleanup := by
  unfold Endpoint.cleanup
  split
  · exact .of_alike (.refl ep)
  rename_i request rest _
  have hp : Alike ep { ep with shared := { ep.shared with cleanup := rest } } :=
    ⟨rfl, rfl, rfl, rfl, rfl⟩
  exact .moved request.peer (.before hp (.of_served (served_cleanupPeer _ request.session)))

theorem stepCase_connectTimeout (ep : Endpoint N) (input : Input N) (now : Instant) :
    StepCase ep input (ep.connectTimeout now) := by
  unfold Endpoint.connectTimeout
  split
  · exact .of_alike (.refl ep)
  split
  · exact .of_alike (.refl ep)
  dsimp only
  split_ifs
  · split
    · exact .of_alike ⟨rfl, rfl, rfl, rfl, rfl⟩
    · exact .of_alike (alike_fail ..)
  · exact .of_alike (.refl ep)

theorem stepCase_retryPeer (ep : Endpoint N) (input : Input N) (call : Call N) :
    StepCase ep input (ep.retryPeer setup call) := by
  have h := sameDriver_retry setup (ep.answer call) (ep.view call.peer)
  unfold Endpoint.retryPeer
  dsimp only
  split <;> rename_i heq <;> rw [heq] at h
  · exact .of_still (.of_sameDriver h) (.refl _)
  rename_i l
  have he : Served (Establishing ep input call.peer) (ep.view call.peer)
      (expirePeer ep.remote call l).1 := .before h (served_expirePeer ..)
  split <;> rename_i he' <;> rw [he'] at he
  · exact .moved call.peer (.of_served he)
  · exact .moved call.peer ((Moved.of_served he).alike (alike_fail ..))

theorem still_reclaim (now : Instant) (l : Local N) : Still l (Endpoint.reclaim now l) := by
  unfold Endpoint.reclaim
  dsimp only
  split_ifs <;> exact ⟨rfl, rfl, .inl rfl, le_rfl⟩

theorem stepCase_driveServer (ep : Endpoint N) (call : Call N) :
    StepCase ep (.driveServer call)
      (ep.put call.peer (driveServer setup (ep.answer call) (ep.view call.peer))) := by
  have h := served_driveServer setup (ep.answer call) (ep.view call.peer)
  refine .moved call.peer (.of_served ⟨h.handed, h.deferred, h.next, ?_⟩)
  exact h.stage.imp fun session hs => ⟨rfl, hs⟩

/-! ### Public calls -/

theorem stepCase_enqueue (ho : ep.offers[index]? = some f) (how : o.owner = f.session)
    (ht : o.ticket = ep.admitted.length) (h : Alike ep ep₁) :
    StepCase ep (.offer index) (ep₁.enqueue f.peer o) := by
  unfold Endpoint.enqueue
  split_ifs
  · exact .queued rfl ho how ht h.slots h.next (congrArg (· ++ _) h.receiver)
      (congrArg (· ++ _) h.admitted) h.handed
  · exact .of_alike h

theorem stepCase_offer (ep : Endpoint N) (index : ℕ) :
    StepCase ep (.offer index) (ep.offer index) := by
  unfold Endpoint.offer
  split
  · exact .of_alike (.refl ep)
  rename_i f ho
  dsimp only
  split
  · exact stepCase_enqueue ho rfl rfl ⟨rfl, rfl, rfl, rfl, rfl⟩
  split
  · exact .of_alike ⟨rfl, rfl, rfl, rfl, rfl⟩
  split_ifs
  · exact stepCase_enqueue ho rfl rfl ⟨rfl, rfl, rfl, rfl, rfl⟩
  · exact .of_alike ⟨rfl, rfl, rfl, rfl, rfl⟩

theorem alike_prepareSend (ep : Endpoint N) (usage : Sending.Usage) (session : Handle)
    (frame : Bytes) (kind : OutboundKind) (latestKey : Option ℕ) :
    Alike ep (ep.prepareSend usage session frame kind latestKey) := by
  unfold Endpoint.prepareSend
  split
  · exact .refl ep
  split
  · exact .refl ep
  · exact ⟨rfl, rfl, rfl, rfl, rfl⟩

theorem alike_authDecide (ep : Endpoint N) (session : Handle) (accepted : Bool) :
    Alike ep (ep.authDecide session accepted) := by
  unfold Endpoint.authDecide
  split
  · exact .refl ep
  split_ifs
  · exact ⟨rfl, rfl, rfl, rfl, rfl⟩
  · exact .refl ep

theorem alike_command (ep : Endpoint N) (session : Handle) (cmd : SecurityCommand) :
    Alike ep (ep.command session cmd) := by
  rcases ep.command_cases session cmd with h | h <;> rw [h]
  · exact .refl ep
  · exact ⟨rfl, rfl, rfl, rfl, rfl⟩

/-! ### Failover -/

theorem sameDriver_sendClientHello (call : Call N) (l : Local N) (conv : ℕ) :
    SameDriver l (Endpoint.sendClientHello setup call l conv).1 := by
  unfold Endpoint.sendClientHello
  split_ifs
  · exact sameDriver_sendTo ..
  · exact sameDriver_sendReliable ..

theorem stageOf_of_pendingClientTimeout
    (h : peer.bind (Endpoint.pendingClientTimeout now timeout) = some session) :
    stageOf peer = .joining session := by
  cases peer with
  | none => cases h
  | some state =>
    cases state <;> simp only [Option.bind_some, Endpoint.pendingClientTimeout] at h <;>
      first | contradiction | (split_ifs at h; cases h; rfl)

/-- What giving up an address changes. -/
structure Abandoned (ep ep' : Endpoint N) (current : SocketAddr) : Prop where
  vacant : stageAt ep' current = .vacant
  elsewhere : ∀ b, b ≠ current → stageAt ep' b = stageAt ep b
  deferred : ∀ b, (ep'.slot b).deferred = (ep.slot b).deferred
  shared : ep'.shared = ep.shared
  receiver : ep'.receiver = ep.receiver
  admitted : ep'.admitted = ep.admitted
  handed : ep'.handed = ep.handed

theorem abandoned_abandon (ep : Endpoint N) (current : SocketAddr) (rest : List SocketAddr) :
    Abandoned ep (ep.abandon current rest) current := by
  have hs : ∀ b, (ep.abandon current rest).slot b = _ := fun b => Endpoint.slot_put ep current b _
  refine ⟨?_, fun b hb => ?_, fun b => ?_, rfl, rfl, rfl, rfl⟩
  · rw [stageAt, hs, if_pos rfl]; rfl
  · rw [stageAt, hs, if_neg hb]; rfl
  rw [hs]
  split_ifs with hb
  · rw [hb]; rfl
  · rfl

theorem Abandoned.moved (h : Abandoned ep ep' current) (hu : ∀ b, Unmoved ep' ep'' b)
    (hn : ep''.shared.nextSession = ep'.shared.nextSession) (hr : ep''.receiver = ep'.receiver)
    (ha : ep''.admitted = ep'.admitted) (hh : ep''.handed = ep'.handed) :
    Moved may current ep ep'' where
  elsewhere b hb := .trans ⟨h.elsewhere b hb, h.deferred b⟩ (hu b)
  deferred := .inl ((hu current).deferred.trans (h.deferred current))
  next := by rw [hn, h.shared]
  stage := by
    rw [(hu current).stage, h.vacant]
    exact .leave _
  receiver := hr.trans h.receiver
  admitted := ha.trans h.admitted
  handed := hh.trans h.handed

theorem unmoved_put (h : SameDriver (ep.view a) l) (b : SocketAddr) :
    Unmoved ep (ep.put a l) b := by
  by_cases hb : b = a
  · subst hb
    refine ⟨?_, ?_⟩
    · rw [stageAt, Endpoint.slot_put, if_pos rfl, h.peer]; rfl
    · rw [Endpoint.slot_put, if_pos rfl, h.deferred]; rfl
  · exact .of_slot (by rw [Endpoint.slot_put, if_neg hb])

theorem stepCase_approach (input : Input N) (call : Call N) (conv : ℕ)
    (h : Abandoned ep ep₁ current) (hc : stageAt ep current = .joining session) :
    StepCase ep input (ep₁.approach setup call conv session) := by
  have hr := ep₁.shared.nextSession_retargetDatagramSession session call.peer
  unfold Endpoint.approach
  dsimp only
  split <;> rename_i he <;> rw [he] at hr
  · rename_i shared e
    have hset : Alike ep₁ { ep₁ with shared := shared } := ⟨rfl, hr, rfl, rfl, rfl⟩
    have hf := hset.trans (alike_fail _ (some session) e.code)
    exact .moved current (h.moved (fun b => .of_slot (hf.slot b)) hf.next hf.receiver
      hf.admitted hf.handed)
  · rename_i shared
    generalize he₂ : ({ ep₁ with shared := shared } : Endpoint N) = ep₂
    have hs : Alike ep₁ ep₂ := by rw [← he₂]; exact ⟨rfl, hr, rfl, rfl, rfl⟩
    have hse := sameDriver_sendClientHello setup (ep₂.answer call) (ep₂.view call.peer) conv
    split <;> rename_i hsen <;> rw [hsen] at hse
    · rename_i l e
      have hf := alike_fail (ep₂.put call.peer l) (some session) e.code
      refine .moved current (h.moved (fun b => ?_) ?_ (hf.receiver.trans hs.receiver)
        (hf.admitted.trans hs.admitted)
        ((hf.handed.trans hse.handed).trans hs.handed))
      · exact ((Unmoved.of_slot (hs.slot b)).trans (unmoved_put hse b)).trans
          (.of_slot (hf.slot b))
      · rw [hf.next, show (ep₂.put call.peer l).shared = ep₂.shared from hse.shared,
          hs.next]
    · rename_i l
      have hsl : ∀ b, (Endpoint.slot { ep₂.put call.peer (setPeer l
          (some (.clientHello session call.now))) with remote := some call.peer } b) = _ :=
        fun b => Endpoint.slot_put ep₂ call.peer b _
      refine @StepCase.failover N ep input _ current call.peer session hc ?_ (fun hn => ?_)
        (fun b hb hb' => ?_) (fun b => ?_) ?_ ?_ ?_ ?_
      · rw [stageAt, hsl, if_pos rfl]; rfl
      · rw [stageAt, hsl, if_neg hn, hs.slot]
        exact h.vacant
      · rw [stageAt, hsl, if_neg hb', hs.slot]
        exact h.elsewhere b hb
      · rw [hsl]
        split_ifs with hb
        · subst hb
          exact ((congrArg Slot.deferred (hs.slot call.peer)).symm ▸ hse.deferred).trans
            (h.deferred call.peer)
        · rw [hs.slot]
          exact h.deferred b
      · exact (congrArg Shared.nextSession hse.shared).trans
          (hs.next.trans (congrArg Shared.nextSession h.shared))
      · exact hs.receiver.trans h.receiver
      · exact hs.admitted.trans h.admitted
      · exact hse.handed.trans (hs.handed.trans h.handed)

theorem stepCase_retryCandidate (ep : Endpoint N) (input : Input N) (call : Call N) (conv : ℕ)
    (rebound : Bool) : StepCase ep input (ep.retryCandidate setup call conv rebound) := by
  unfold Endpoint.retryCandidate
  split
  · rename_i current next rest _ _
    split
    · exact .of_alike (.refl ep)
    rename_i session hp
    have h := abandoned_abandon ep current rest
    split_ifs
    · have hf := alike_fail (ep.abandon current rest) (some session) .ioError
      exact .moved current (h.moved (fun b => .of_slot (hf.slot b)) hf.next hf.receiver
        hf.admitted hf.handed)
    · exact stepCase_approach setup input _ conv h (stageOf_of_pendingClientTimeout hp)
  · exact .of_alike (.refl ep)

/-! ### Every step -/

theorem stepCase_outbound (ep : Endpoint N) (call : Call N) :
    StepCase ep (.outbound call) (ep.outbound setup call) := by
  unfold Endpoint.outbound
  split
  · exact .of_alike (.refl ep)
  rename_i a o rest hf
  split_ifs
  · exact .taken call rfl hf (taken_takeOutbound ..) rfl
  · exact .of_alike (.refl ep)

theorem StepCase.gated {enabled : Bool} (h : StepCase ep input ep') :
    StepCase ep input (if enabled then ep' else ep) := by
  split_ifs
  · exact h
  · exact .of_alike (.refl ep)

/-- **Inversion of a step.** -/
theorem step_cases (ep : Endpoint N) (input : Input N) :
    StepCase ep input (step setup ep input) := by
  cases input with
  | datagram call packet kcp => exact .gated (stepCase_datagram ..)
  | serve call => exact .gated (stepCase_serve ..)
  | outbound call => exact .gated (stepCase_outbound ..)
  | cleanup => exact .gated (stepCase_cleanup ..)
  | connectTimeout now => exact .gated (stepCase_connectTimeout ..)
  | retryCandidate call conv rebound => exact .gated (stepCase_retryCandidate ..)
  | reclaim call => exact .gated (.of_still (still_reclaim ..) (.refl _))
  | driveServer call => exact .gated (stepCase_driveServer ..)
  | flushDeferred call => exact .gated (.flushed (flushed_flushDeferred ..) rfl)
  | retry call => exact .gated (stepCase_retryPeer ..)
  | prepareSend => exact .of_alike (alike_prepareSend ..)
  | offer index => exact stepCase_offer ..
  | closeSession session reason =>
    exact .of_alike ⟨rfl, Shared.nextSession_close .., rfl, rfl, rfl⟩
  | authDecide => exact .of_alike (alike_authDecide ..)
  | command => exact .of_alike (alike_command ..)

/-! ### Start states -/

/-- No message anywhere, and at most one address, which is joining. -/
structure Fresh (ep : Endpoint N) : Prop where
  deferred : ∀ a, (ep.slot a).deferred = []
  receiver : ep.receiver = []
  admitted : ep.admitted = []
  handed : ep.handed = []
  stage : ∃ a, ∀ b, stageAt ep b = .vacant ∨
    b = a ∧ ∃ session, stageAt ep b = .joining session ∧ session < ep.shared.nextSession

theorem nextSession_clientRoute (h : config.Limits) (a : SocketAddr) :
    ((Shared.initial config).insertSessionRoute (clientRoute setup config a)).1.nextSession = 2 := by
  have hp := h.pending_pos
  rcases (Shared.initial config).insertSessionRoute_cases (clientRoute setup config a) with
    ⟨e, he⟩ | ⟨s, hs, hn⟩
  · have hl : ¬config.maxPendingHandshakes ≤ 0 := by omega
    simp [Shared.insertSessionRoute, Shared.initial, clientRoute, acceptedRoute, hl] at he
  · rw [hs, hn]; rfl

theorem fresh_of_init (h : (machine setup).init ep) : Fresh ep := by
  obtain ⟨config, room, hv, -, rfl | ⟨call, conv, candidates, deadline, -, rfl⟩⟩ := h
  · exact ⟨fun _ => rfl, rfl, rfl, rfl, ⟨⟨.v4 0, 0⟩, fun _ => .inl rfl⟩⟩
  have hr := nextSession_clientRoute setup (config.limits_of_validate hv) call.peer
  unfold Endpoint.client
  extract_lets _ ep l
  have hs : SameDriver (ep.view call.peer) l := sameDriver_sendClientHello ..
  have hsl : ∀ b, (ep.put call.peer (setPeer l (some (.clientHello 1 call.now)))).slot b =
      if b = call.peer then { l.slot with peer := some (.clientHello 1 call.now) }
      else .empty N := by
    intro b
    rw [Endpoint.slot_put]
    rfl
  refine ⟨fun b => ?_, rfl, rfl, hs.handed, call.peer, fun b => ?_⟩
  · rw [hsl]
    split_ifs
    · exact hs.deferred
    · rfl
  · rw [stageAt, hsl]
    split_ifs with hb
    · refine .inr ⟨hb, 1, rfl, ?_⟩
      have hn : l.shared.nextSession = 2 := by rw [hs.shared]; exact hr
      exact lt_of_lt_of_eq Nat.one_lt_two hn.symm
    · exact .inl rfl

end Rnet.Transport.Steps
