import Rnet.Transport.Joining

/-! # Control responses that cannot be sent

The receive path advances the controller of a session before it encrypts and sends the response. If
that fails, `establishedArm` puts the peer back with the advanced controller and the loop, which
cleans up only behind an address that was left without a peer, keeps the session: its route stays,
the response is lost and the effect that was to follow it is not applied. -/

namespace Rnet.Transport.ControlFailure

open Rnet.Core Lib.BigEndian Protocol.Records Security.Cipher
open Security.Controller Security.TagNoise Config State Slots Codec Wire Session Process Maintenance
open Worker Joining

variable {N : Noise}

/-- Fields of an established peer. -/
structure Session (N : Noise) where
  handle : Handle
  transport : DatagramTransport N
  controller : SecurityController
  commands : Bool
  lastActivity : Instant
  deadline : Option Instant

def Session.peer (s : Session N) : Peer N :=
  .established s.handle s.transport s.controller s.commands s.lastActivity s.deadline

/-- The input `bytes` is a control of the session that its controller accepts, and the response
cannot be encrypted or sent. -/
structure FailedResponse (setup : Setup N) (call : Call N) (l : Local N) (bytes : Bytes)
    (s : Session N) (transition : Transition) (c' : SecurityController) : Prop where
  peer : l.slot.peer = some s.peer
  active : l.shared.sessionActive s.handle = true
  fresh : (beginInput setup call l bytes).2.1 = false
  failed : ∃ record t' payload control e,
    decodeRecord bytes (recordLimit setup l.shared.config) = .ok record ∧
    record.kind = .protectedRecord ∧ record.epoch = s.controller.epoch ∧
    decrypt s.transport record (l.shared.config.maxBodyLen + 64) = (t', .ok ⟨.control, payload⟩) ∧
    decodeControl payload = .ok control ∧
    s.controller.handle control = (c', .ok transition) ∧
    (respond setup call (setPeer (beginInput setup call l bytes).1 none)
      (apply t' transition.beforeResponse) record.epoch transition.response).2.2 = .error e

variable {c' : SecurityController}

theorem advanced_of_respond (h : c.handle k = (c', .ok t)) (hr : t.response.isSome) : c' ≠ c := by
  cases barrier_of_handle h <;> simp_all [Transition.respond]

variable {setup : Setup N} {call : Call N} {l : Local N} {e : RnetError}

theorem isSome_of_respond_error (h : (respond setup call l t epoch response).2.2 = .error e) :
    response.isSome := by
  cases response with
  | none => cases h
  | some => rfl

variable {transition : Transition}

variable {payload : Bytes} {control : Control} {s : Session N}

/-- The receive path of a session whose response fails: the controller has moved, only the effect
before the response was applied. -/
theorem handleControl_of_respond_error (hd : decodeControl payload = .ok control)
    (hh : c.handle control = (c', .ok transition))
    (hf : (respond setup call l (apply t transition.beforeResponse) epoch
      transition.response).2.2 = .error e) :
    handleControl setup call l session t c epoch payload =
      ⟨(respond setup call l (apply t transition.beforeResponse) epoch transition.response).1,
        (respond setup call l (apply t transition.beforeResponse) epoch transition.response).2.1,
        c', .error e⟩ := by
  unfold handleControl
  rw [hd]
  simp only [hh]
  generalize respond setup call l (apply t transition.beforeResponse) epoch transition.response = r
    at hf
  obtain ⟨l', t', r⟩ := r
  simp only at hf
  subst hf
  rfl

theorem process_of_respond_error (hp : l.slot.peer = some s.peer)
    (ha : l.shared.sessionActive s.handle = true) (hk : record.kind = .protectedRecord)
    (he : record.epoch = s.controller.epoch)
    (ho : decrypt s.transport record (l.shared.config.maxBodyLen + 64) =
      (t', .ok ⟨.control, payload⟩)) (hd : decodeControl payload = .ok control)
    (hh : s.controller.handle control = (c', .ok transition))
    (hf : (respond setup call (setPeer l none) (apply t' transition.beforeResponse)
      record.epoch transition.response).2.2 = .error e) :
    process setup call l record =
      (setPeer (respond setup call (setPeer l none) (apply t' transition.beforeResponse)
          record.epoch transition.response).1
        (some (Session.peer { s with
          transport := (respond setup call (setPeer l none) (apply t' transition.beforeResponse)
            record.epoch transition.response).2.1
          controller := c' })), .error e) := by
  have hr : reachesSession setup record = true := by
    unfold reachesSession
    rw [hk]
    split <;> simp_all
  have hes : handleEstablished setup call (setPeer l none) s.handle s.transport s.controller
      record = handleControl setup call (setPeer l none) s.handle t' s.controller record.epoch
        payload := by
    have ho' : openMessage ((setPeer l none).shared.config.maxBodyLen + 64) s.transport
        s.controller record = (t', .ok ⟨.control, payload⟩) := by
      unfold openMessage
      rw [hk]
      exact ho
    exact @handleEstablished_of_open N setup call (setPeer l none) _ _ _ _ _ _ ha he ho'
  unfold process
  rw [hp, hr]
  simp only [Session.peer, establishedArm, hes,
    handleControl_of_respond_error hd hh hf]

theorem receiveRecord_of_failedResponse (remote : Option SocketAddr)
    (initialSession : Option Handle) (h : FailedResponse setup call l bytes s transition c') :
    ∃ l' t'', receiveRecord setup remote initialSession call l bytes = (l', none) ∧
      l'.shared = l.shared ∧
      l'.slot.peer = some (Session.peer { s with transport := t'', controller := c' }) ∧
      t''.outKey = (apply s.transport transition.beforeResponse).outKey ∧
      t''.inKey = (apply s.transport transition.beforeResponse).inKey := by
  obtain ⟨hpee, hac, hf, record, t', payload, control, e, hd, hki, he,
    hop, hde, hh, hfa⟩ := h
  have hb := sameDriver_beginInput setup call l bytes
  generalize hi : beginInput setup call l bytes = input at hb hf hfa
  obtain ⟨l₁, duplicate, cached⟩ := input
  simp only at hf hb hfa
  subst hf
  have hp := process_of_respond_error (hb.peer.trans hpee)
    (by rw [hb.shared]; exact hac) hki he (by rw [hb.shared]; exact hop)
    hde hh hfa
  have hdr := sameDriver_respond setup call (setPeer l₁ none)
    (apply t' transition.beforeResponse) record.epoch transition.response
  have hk := respond_keys setup call (setPeer l₁ none)
    (apply t' transition.beforeResponse) record.epoch transition.response
  have hpe : needsPermit setup call l record = false := by
    unfold needsPermit
    split <;> simp [hki]
  have ho := decrypt_keys s.transport record (l.shared.config.maxBodyLen + 64)
  rw [hop] at ho
  have ha := apply_keys ho.1 ho.2.1 transition.beforeResponse
  generalize respond setup call (setPeer l₁ none) (apply t' transition.beforeResponse)
    record.epoch transition.response = r at hp hdr hk
  refine ⟨endInput (process setup call l₁ record).1 false, r.2.1, ?_, ?_, ?_,
    hk.1.trans ha.1, hk.2.1.trans ha.2⟩
  · unfold receiveRecord
    rw [hd]
    simp only [hpe, Bool.false_eq_true, if_false]
    unfold serveRecord
    simp only [hki, reduceCtorEq, if_false, hi]
    rw [hp]
    rfl
  · rw [hp]
    exact hdr.shared.trans hb.shared
  · rw [hp]
    rfl

/-- **A failed control response never closes the session.** Whatever made the response fail, the
route stays and the peer stays established with the advanced controller, under the keys it had when
the response was due. -/
theorem failed_response_keeps_session {setup : Setup N} {ep : Endpoint N} {call : Call N}
    {a : SocketAddr} {bytes : Bytes} {rest : List (SocketAddr × Bytes)} {s : Session N}
    {transition : Transition} {c' : SecurityController}
    (ha : ep.alive = true) (hi : ep.inbox = (a, bytes) :: rest)
    (h : FailedResponse setup (ep.answer { call with peer := a }) (ep.view a) bytes s transition
      c') :
    (step setup ep (.serve call)).alive = true ∧
      (step setup ep (.serve call)).shared = ep.shared ∧
      (step setup ep (.serve call)).shared.sessionActive s.handle = true ∧
      c' ≠ s.controller ∧
      ∃ t'', ((step setup ep (.serve call)).slot a).peer =
          some (Session.peer { s with transport := t'', controller := c' }) ∧
        t''.outKey = (apply s.transport transition.beforeResponse).outKey ∧
        t''.inKey = (apply s.transport transition.beforeResponse).inKey := by
  obtain ⟨l', t'', hr, hs, hp, ho, hin⟩ :=
    receiveRecord_of_failedResponse ep.remote ep.initialSession h
  have hst : step setup ep (.serve call) = { ep.put a l' with inbox := rest } := by
    simp only [step, ha, if_true, Endpoint.serve, hi, hr]
  obtain ⟨record, t', payload, control, e, -, -, -, -, -, hh, hf⟩ := h.failed
  have hm := advanced_of_respond hh (isSome_of_respond_error hf)
  rw [hst]
  refine ⟨ha, hs, ?_, hm, t'', ?_, ho, hin⟩
  · exact (congrArg (Shared.sessionActive · s.handle) hs).trans h.active
  have hsl := ep.slot_put a a l'
  rw [if_pos rfl] at hsl
  exact (congrArg Slot.peer hsl).trans hp

/-! ### A lost commit -/

/-- The client's answer to the proposal of plaintext mode. -/
def readyBytes : Bytes :=
  recordBytes ⟨.protectedRecord, 1, toBytes 8 0 ++ (protectedBytes ⟨.control,
    encodeControl (.barrier .switchReady 2)⟩ ++ tag ⟨5, 9, 0⟩ 0)⟩

/-- The default limits, with plaintext allowed. -/
def lenient : RuntimeConfig :=
  { RuntimeConfig.production with
    securityPolicy := { SecurityPolicy.production with allowPlaintextBusinessData := true } }

/-- The application of a joined server asked for plaintext mode, the proposal left, and the client's
answer is waiting. -/
def proposed : Endpoint tagNoise :=
  (machine (server .udp)).run (joined .udp lenient)
    [.command 1 (.setMode .plaintext), .driveServer (calm home 1 (9 : UInt64)),
      .datagram (calm home 2 (9 : UInt64)) readyBytes ⟨.ok (), .ok (), 0, false, []⟩]

def refusing : Call tagNoise :=
  { calm home 2 (9 : UInt64) with sendOk := false, sendError := "network unreachable" }

/-- In a run of a server the socket refuses the commit, and the session goes on with the controller
that waits for its acknowledgement. -/
theorem lost_commit_keeps_session :
    (machine (server .udp)).Reach (fun _ _ => True) proposed ∧
      controllerOf proposed home =
        some ⟨.server, .encrypted, 1, some (.serverSwitchReady 2 .plaintext)⟩ ∧
      (step (server .udp) proposed (.serve refusing)).sent = proposed.sent ∧
      (step (server .udp) proposed (.serve refusing)).shared.sessionActive 1 = true ∧
      controllerOf (step (server .udp) proposed (.serve refusing)) home =
        some ⟨.server, .encrypted, 1, some (.serverSwitchAck 2 .plaintext)⟩ := by
  refine ⟨.run_free (fun _ _ => trivial) _ (.run_free (fun _ _ => trivial) _ ?_), by decide +kernel⟩
  exact .start ⟨lenient, 3600000, by decide, rfl, .inl rfl⟩

def proposing : Session tagNoise where
  handle := 1
  transport := ⟨⟨5, 9, 1⟩, ⟨5, 9, 0⟩, 2, .empty⟩
  controller := ⟨.server, .encrypted, 1, some (.serverSwitchReady 2 .plaintext)⟩
  commands := true
  lastActivity := 0
  deadline := some 5001

theorem failedResponse_proposed :
    FailedResponse (server .udp) (proposed.answer { refusing with peer := home })
      (proposed.view home) readyBytes proposing (.respond (.barrier .switchCommit 2))
      ⟨.server, .encrypted, 1, some (.serverSwitchAck 2 .plaintext)⟩ where
  peer := by decide +kernel
  active := by decide +kernel
  fresh := by decide +kernel
  failed := ⟨⟨.protectedRecord, 1, readyBytes.drop headerLen⟩,
    ⟨⟨5, 9, 1⟩, ⟨5, 9, 0⟩, 2, ⟨some 0, 1⟩⟩, encodeControl (.barrier .switchReady 2),
    .barrier .switchReady 2, ioFailure refusing, by decide +kernel⟩

theorem failed_response_keeps_session_proposed :
    (step (server .udp) proposed (.serve refusing)).shared.sessionActive 1 = true :=
  (failed_response_keeps_session (by decide +kernel) (show proposed.inbox = [(home, readyBytes)] by
    decide +kernel) failedResponse_proposed).2.2.1

end Rnet.Transport.ControlFailure
