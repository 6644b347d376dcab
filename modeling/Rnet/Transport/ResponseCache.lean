import Rnet.Transport.Joining
import Rnet.Transport.SlotCases

/-! # What the wire remembers on UDP

On UDP the wire remembers one control input per address with the response it was answered with, and
one control record per address that waits for its answer. A repeated input is answered from the
cache.

The entry is written as soon as a record decodes, before anything authenticates it, and any other
control or protected record takes its place. So a repeated request is recognised as long as nothing
but plaintext data, undecodable datagrams and the request itself come in between
(`retransmission_answered`). For the same reason an address may have an entry without being a peer,
and nothing reclaims that entry; entries belong to peers as long as every record of an unknown
address is a hello with a valid cookie and no peer is dropped on the way (`wire_state_has_peer`). -/

namespace Rnet.Transport.ResponseCache

open Rnet.Core Lib.BigEndian Lib.FiniteMap Lib.GuardedRun Protocol.Records Security.Cipher
open Security.TagNoise Config State Slots Codec Wire Session Process Maintenance
open KcpPreflight Worker Arms Holdings SlotCases Joining

variable {N : Noise}

/-! ### Repeated requests -/

/-- The state after `request` of `a` was processed and answered with `response`, and there was room to
remember it. -/
structure Answers (setup : Setup N) (a : SocketAddr) (request response : Bytes)
    (ep : Endpoint N) (call : Call N) (ep' : Endpoint N) : Prop where
  first : ∃ rest, ep.inbox = (a, request) :: rest
  control : ∃ record, decodeRecord request (recordLimit setup ep.shared.config) = .ok record ∧
    record.kind ≠ .plainData
  fresh : (ep.slot a).seen.all (fun s => s.request ≠ request) = true
  room : seenRoom (ep.answer { call with peer := a }) (ep.view a) = true
  served : ep' = ep.serve setup call
  answered : ep'.sent = ep.sent ++ [(a, response)]
  registered : (ep'.slot a).peer.isSome

def machine (setup : Setup N) (a : SocketAddr) (request response : Bytes) :
    Machine (Endpoint N) (Input N) where
  init ep' := ∃ ep call, Answers setup a request response ep call ep'
  step := step setup

/-- The peer of `a` stays registered. -/
structure Registered (setup : Setup N) (a : SocketAddr) (ep : Endpoint N) (input : Input N) :
    Prop where
  peer : ((step setup ep input).slot a).peer.isSome
  failover : ∀ current next, Failover ep input current next → a ≠ current ∧ a ≠ next

/-- What `a` delivers is undecodable, plaintext data or the request again. -/
def spared (setup : Setup N) (a : SocketAddr) (request : Bytes) (ep : Endpoint N) : Input N → Bool
  | .serve _ =>
    match ep.inbox with
    | [] => true
    | (b, bytes) :: _ =>
      match decodeRecord bytes (recordLimit setup ep.shared.config) with
      | .error _ => true
      | .ok record => b ≠ a || record.kind = .plainData || bytes = request
  | _ => true

/-- The cache holds the request with its response, and no input is being processed. -/
structure Cached (request response : Bytes) (s : Slot N) : Prop where
  seen : s.seen = some ⟨request, some response⟩
  activeInput : s.activeInput = none

section

variable {setup : Setup N} {a : SocketAddr} {request response : Bytes} {ep : Endpoint N}
  {input : Input N}

variable {l : Local N}

theorem Cached.of_held (h : Cached request response l.slot) (hh : Held l l') :
    Cached request response l'.slot :=
  ⟨(hh.seen h.activeInput).trans h.seen, hh.activeInput.trans h.activeInput⟩

theorem Cached.of_quiet (h : Cached request response l.slot) (hq : Quiet l l')
    (hp : l'.slot.peer.isSome) : Cached request response l'.slot :=
  h.of_held (hq.kept hp)

variable {call : Call N} {bytes : Bytes}

theorem cached_receiveRecord (h : Cached request response l.slot)
    (hsp : ∀ record, decodeRecord bytes (recordLimit setup l.shared.config) = .ok record →
      record.kind = .plainData ∨ bytes = request)
    (hpe : (receiveRecord setup remote initialSession call l bytes).1.slot.peer.isSome) :
    Cached request response (receiveRecord setup remote initialSession call l bytes).1.slot := by
  have hr : Receives setup remote initialSession call l bytes _ := receives_receiveRecord
  generalize receiveRecord setup remote initialSession call l bytes = r at hr hpe
  cases hr with
  | refused => exact h
  | @repeated _ _ response _ _ hp _ hl =>
    subst hl
    rcases hp.slot response with hs | ⟨-, -, hs⟩ <;> rw [hs]
    · exact h
    · exact ⟨h.seen, h.activeInput⟩
  | @processed record l₀ hd hb =>
    rcases hb.cache with ⟨-, hse, hi⟩ | ⟨hpl, -, hf, -⟩
    · have hp := (processes_process setup call l₀ record).echo
      generalize process setup call l₀ record = r at hp hpe
      obtain ⟨l₁, result⟩ := r
      have hl₁ := Cached.of_held (l := l₀) ⟨hse.trans h.seen, hi.trans h.activeInput⟩ hp.toHeld
      rcases @afterProcess_cases N remote initialSession call l₁ result _ _ with
        ⟨-, -, hn, -⟩ | ⟨-, hs⟩
      · rw [hn] at hpe
        cases hpe
      · exact ⟨hs.seen.trans hl₁.seen, hs.activeInput⟩
    · -- any other control record would have taken the place of the request
      rw [(hsp record hd).resolve_left hpl, h.seen] at hf
      simp at hf

/-- **One step** keeps the cached response of a registered address. -/
theorem cached_of_slotCase (hki : setup.kind = .udp) (h : Cached request response (ep.slot a))
    (hsp : spared setup a request ep input = true)
    (hfa : ∀ current next, Failover ep input current next → a ≠ current ∧ a ≠ next)
    (hca : SlotCase setup ep a input s') (hpe : s'.peer.isSome) : Cached request response s' := by
  have hkc : setup.kind ≠ .kcp := by rw [hki]; nofun
  cases hca with
  | same => exact h
  | preflight hi _ hpr =>
    rw [handlePreflight_past (.inl hkc)] at hpr
    cases hpr
    exact h
  | refused _ hk | fed _ hk => exact absurd hk hkc
  | @served call bytes rest ha hfi =>
    refine cached_receiveRecord (l := ep.view a) h (fun record hd => ?_) hpe
    have hd' : decodeRecord bytes (recordLimit setup ep.shared.config) = .ok record := hd
    simpa [spared, hfi, hd'] using hsp
  | taken hfi => exact h.of_quiet (l := ep.view a) (quiet_takeOutbound ..) hpe
  | @cleaned request' rest hfi =>
    rcases slot_cleanupPeer_cases (ep.view a) request'.session with ⟨-, -, -, hk⟩ | hr
    · rw [hk]
      exact ⟨h.seen, h.activeInput⟩
    · rw [hr] at hpe
      cases hpe
  | reclaimed =>
    unfold Endpoint.reclaim
    dsimp only
    split_ifs <;> exact ⟨h.seen, h.activeInput⟩
  | driven => exact h.of_quiet (l := ep.view a) (quiet_driveServer ..) hpe
  | flushed => exact h.of_quiet (l := ep.view a) (quiet_flushDeferred ..) hpe
  | @retried call l _ hr =>
    have hh := held_retry setup (ep.answer call) (ep.view a)
    rw [hr] at hh
    exact h.of_held (l := ep.view a) hh
  | @expired call l _ hr =>
    have hh := held_retry setup (ep.answer call) (ep.view a)
    rw [hr] at hh
    exact h.of_quiet (l := ep.view a) (quiet_expirePeer ep.remote call hh) hpe
  | failover hf hb =>
    obtain ⟨hc, hn⟩ := hfa _ _ hf
    exact absurd hb (not_or_intro hc hn)

theorem slot_serve (hf : ep.inbox = (a, bytes) :: rest) :
    (ep.serve setup call).slot a =
      (receiveRecord setup ep.remote ep.initialSession (ep.answer { call with peer := a })
        (ep.view a) bytes).1.slot := by
  unfold Endpoint.serve
  rw [hf]
  dsimp only
  split <;> exact (Endpoint.slot_put ep a a _).trans (if_pos rfl)

theorem sent_serve (hf : ep.inbox = (a, bytes) :: rest) :
    (ep.serve setup call).sent = ep.sent ++
      (receiveRecord setup ep.remote ep.initialSession (ep.answer { call with peer := a })
        (ep.view a) bytes).1.sent.map fun b => (a, b) := by
  unfold Endpoint.serve
  rw [hf]
  dsimp only
  split <;> rfl

theorem not_registered_of_needsPermit (h : needsPermit setup call l record = true) :
    ¬ l.slot.peer.isSome := by
  unfold needsPermit at h
  split at h
  · simp only [Bool.and_eq_true, Option.isNone_iff_eq_none] at h
    rw [h.1.1.1.2]
    nofun
  · cases h

theorem cached_of_answers (hki : setup.kind = .udp)
    (h : Answers setup a request response ep call ep') : Cached request response (ep'.slot a) := by
  obtain ⟨rest, hf⟩ := h.first
  obtain ⟨record, hd, hc⟩ := h.control
  have hpe := h.registered
  have hse := h.answered
  rw [h.served] at hpe hse ⊢
  rw [slot_serve hf] at hpe ⊢
  rw [sent_serve hf, List.append_cancel_left_eq] at hse
  have hr := @receives_receiveRecord N setup ep.remote ep.initialSession
    (ep.answer { call with peer := a }) (ep.view a) request
  generalize receiveRecord setup ep.remote ep.initialSession _ (ep.view a) request = r
    at hr hpe hse ⊢
  cases hr with
  -- only an address without a peer asks for a permit
  | refused hn => exact absurd hpe (not_registered_of_needsPermit (hn record hd).1)
  | repeated _ _ hs =>
    have hfr := h.fresh
    rw [show (ep.slot a).seen = _ from hs] at hfr
    simp at hfr
  | @processed record' l₀ hd' hb =>
    cases hd.symm.trans hd'
    rcases hb.cache with ⟨hpl | hk, -⟩ | ⟨-, -, -, hi, hsee⟩
    · exact absurd hpl hc
    · exact nomatch hki.symm.trans hk
    have hr : seenRoom (ep.answer { call with peer := a }) l₀ = true := by
      unfold seenRoom
      rw [hsee, if_pos h.room]
      rfl
    have hp := (processes_process setup (ep.answer { call with peer := a }) l₀ record).echo
    generalize process setup (ep.answer { call with peer := a }) l₀ record = r at hp hpe hse ⊢
    obtain ⟨l₁, result⟩ := r
    rcases @afterProcess_cases N ep.remote ep.initialSession (ep.answer { call with peer := a }) l₁
      result _ _ with ⟨-, -, hno, -⟩ | ⟨-, hs⟩
    · rw [hno] at hpe
      cases hpe
    have hst : l₀.sent = [] := hb.sent
    rw [hs.sent] at hse
    rcases hp.answer with ⟨hsa, -⟩ | ⟨b, hb', hca⟩
    · rw [show l₁.sent = l₀.sent from hsa, hst] at hse
      cases hse
    rw [show l₁.sent = l₀.sent ++ [b] from hb', hst] at hse
    cases hse
    exact ⟨hs.seen.trans (hca request hi hr), hs.activeInput⟩

end

/-- **A repeated request is answered from the cache** as long as its peer is registered and nothing
but undecodable datagrams, plaintext data and the request itself come in between. -/
theorem retransmission_answered (setup : Setup N) (hk : setup.kind = .udp) (a : SocketAddr)
    (request response : Bytes) {ep : Endpoint N}
    (h : (machine setup a request response).Reach
      (fun ep input => Registered setup a ep input ∧ spared setup a request ep input = true) ep)
    (call : Call N) (record : Record)
    (hd : decodeRecord request (recordLimit setup ep.shared.config) = .ok record) :
    beginInput setup call (ep.view a) request = (ep.view a, true, some response) ∧
      receiveRecord setup ep.remote ep.initialSession call (ep.view a) request =
        ((sendTo call (ep.view a) response).1, none) := by
  have hi : Cached request response (ep.slot a) ∧ (ep.slot a).peer.isSome ∧
      RecordKind.ofByte ((request.drop 6).headD 0) ≠ .ok .plainData := by
    refine Machine.Reach.invariant (M := machine setup a request response)
      (I := fun ep => Cached request response (ep.slot a) ∧ (ep.slot a).peer.isSome ∧
        RecordKind.ofByte ((request.drop 6).headD 0) ≠ .ok .plainData) ?_ ?_ h
    · rintro ep' ⟨ep, call, ha⟩
      obtain ⟨record, hre, hc⟩ := ha.control
      refine ⟨cached_of_answers hk ha, ha.registered, ?_⟩
      rw [kind_of_decodeRecord hre]
      exact fun he => hc (Except.ok.inj he)
    · rintro ep input ⟨hca, -, hc⟩ ⟨hr, hs⟩
      exact ⟨cached_of_slotCase hk hca hs hr.failover
        (slot_cases setup ep input a) hr.peer, hr.peer, hc⟩
  obtain ⟨hca, hpe, hc⟩ := hi
  have hb : beginInput setup call (ep.view a) request = (ep.view a, true, some response) := by
    have hse : (ep.view a).slot.seen = some ⟨request, some response⟩ := hca.seen
    unfold beginInput
    rw [if_neg (by rw [hk]; nofun), hse, Option.filter_some_pos (by simp)]
  refine ⟨hb, ?_⟩
  have hp : record.kind ≠ .plainData := fun he =>
    hc ((kind_of_decodeRecord hd).trans (by rw [he]))
  have hn : ¬ needsPermit setup call (ep.view a) record = true := fun hn =>
    not_registered_of_needsPermit hn hpe
  have hd' : decodeRecord request (recordLimit setup (ep.view a).shared.config) = .ok record :=
    hd
  unfold receiveRecord
  rw [hd']
  dsimp only
  rw [if_neg hn]
  unfold serveRecord
  rw [if_neg hp, hb]

def greeting : Call tagNoise := calm home 0 visitor.serverSeed

def firstMessage : Bytes :=
  recordBytes ⟨.handshake, 0, tagNoise.first visitor.client visitor.clientSeed⟩

def firstReply : Bytes :=
  recordBytes ⟨.handshake, 0, tagNoise.response visitor.server visitor.serverSeed
    (tagNoise.first visitor.client visitor.clientSeed)⟩

def waiting : Endpoint tagNoise :=
  (Worker.machine (server .udp)).run (.server .production)
    (arrive .udp greeting (recordBytes ⟨.clientHello, 0, List.replicate cookieLen 0⟩) ++
      [.datagram greeting firstMessage ⟨.ok (), .ok (), 0, false, []⟩])

def replied : Endpoint tagNoise := waiting.serve (server .udp) greeting

theorem answers_replied :
    Answers (server .udp) home firstMessage firstReply waiting greeting replied where
  first := ⟨[], by decide +kernel⟩
  control := ⟨⟨.handshake, 0, tagNoise.first visitor.client visitor.clientSeed⟩,
    by decide +kernel, nofun⟩
  fresh := by decide +kernel
  room := by decide +kernel
  served := rfl
  answered := by decide +kernel
  registered := by decide +kernel

def forged : Bytes := recordBytes ⟨.cookieChallenge, 0, []⟩

def disturbed : Endpoint tagNoise :=
  (machine (server .udp) home firstMessage firstReply).run replied (arrive .udp greeting forged)

theorem no_failover (h : ep.remote = none) :
    ∀ current next, Failover ep input current next → a ≠ current ∧ a ≠ next :=
  fun _ _ hf => nomatch h.symm.trans hf.remote

/-- The repeated message is processed again, which ends the handshake instead of answering. -/
theorem forged_record_hides_answer :
    (machine (server .udp) home firstMessage firstReply).Reach (Registered (server .udp) home)
      disturbed ∧
    (receiveRecord (server .udp) disturbed.remote disturbed.initialSession greeting
      (disturbed.view home) firstMessage).1.sent = [] ∧
    (receiveRecord (server .udp) disturbed.remote disturbed.initialSession greeting
      (disturbed.view home) firstMessage).1.slot.peer = none := by
  refine ⟨Machine.reach_run _ (.start ⟨_, _, answers_replied⟩) ?_, by decide +kernel,
    by decide +kernel⟩
  exact ⟨⟨by decide +kernel, no_failover (by decide +kernel)⟩,
    ⟨by decide +kernel, no_failover (by decide +kernel)⟩, trivial⟩

def undisturbed : Endpoint tagNoise :=
  (machine (server .udp) home firstMessage firstReply).run replied (arrive .udp greeting [0])

theorem retransmission_answered_undisturbed :
    receiveRecord (server .udp) undisturbed.remote undisturbed.initialSession greeting
      (undisturbed.view home) firstMessage =
        ((sendTo greeting (undisturbed.view home) firstReply).1, none) := by
  refine (retransmission_answered (server .udp) rfl home firstMessage firstReply
    (Machine.reach_run _ (.start ⟨_, _, answers_replied⟩) ?_) greeting
    ⟨.handshake, 0, tagNoise.first visitor.client visitor.clientSeed⟩ (by decide +kernel)).2
  exact ⟨⟨⟨by decide +kernel, no_failover (by decide +kernel)⟩, rfl⟩,
    ⟨⟨by decide +kernel, no_failover (by decide +kernel)⟩, by decide +kernel⟩, trivial⟩

/-! ### Entries without a peer -/

/-- An address the wire remembers something about is a peer. -/
def Tied (s : Slot N) : Prop := s.seen.isSome ∨ s.pending.isSome → s.peer.isSome

/-- Whether a session's record was encoded and fits. -/
def encodable (encoded : DatagramTransport N × Result Record) (max : ℕ) : Bool :=
  match encoded.2 with
  | .error _ => false
  | .ok record => (encodeRecord record max).isOk

/-- Whether the wire takes another control record of the address. -/
def takesControl (call : Call N) (l : Local N) : Bool :=
  call.sendOk &&
    (l.slot.pending.isSome || call.others.pending < l.shared.config.maxSessionsPerEndpoint)

/-- Whether a message from the write queue reaches the wire or waits. -/
def takesOutbound (call : Call N) (l : Local N) (o : Outbound) : Bool :=
  match l.slot.peer with
  | some (.established session t c _ _ _) =>
    !l.shared.sessionActive session || c.isTransitioning ||
      match (l.shared.resolveLatest o).2 with
      | none => true
      | some o => call.sendOk &&
          encodable (encodeOutbound t c o l.shared.config.maxBodyLen) l.shared.config.maxDatagramSize
  | _ => true

/-- Whether what a tick has to tell a peer reaches the wire and the application. -/
def takesDecision (call : Call N) (l : Local N) : Bool :=
  match l.slot.peer with
  | some (.serverAuth session t mode _) =>
    match l.shared.authDecisions.lookup session with
    | none => true
    | some accepted => call.eventRoom && takesControl call l &&
        encodable (protectedRecord t initialEpoch .authDecision
          [if accepted then 1 else 0, mode.toByte] 64) 128
  | some (.established session t c commands _ _) =>
    match autoRekey call commands (takeCommand call (setPeer l none) session c commands) with
    | (_, _, none) => true
    | (l, c, some control) => takesControl call l &&
        encodable (protectedRecord t c.epoch .control (encodeControl control) 64) 128
  | _ => true

/-- What the steps of a tended run avoid: a record other than plaintext data from an address that is
no peer, unless it is a hello with a valid cookie; a message or decision that cannot be sent; and a
control record that reaches its retry limit. -/
def tended (setup : Setup N) (ep : Endpoint N) : Input N → Bool
  | .serve call =>
    match ep.inbox with
    | [] => true
    | (a, bytes) :: _ =>
      match decodeRecord bytes (recordLimit setup ep.shared.config) with
      | .error _ => true
      | .ok record => (ep.slot a).peer.isSome || record.kind = .plainData ||
          (record.kind = .clientHello && record.payload.length = cookieLen &&
            call.cookieValid record.payload)
  | .outbound call =>
    match ep.receiver with
    | [] => true
    | (a, o) :: _ => takesOutbound (ep.answer { call with peer := a }) (ep.view a) o
  | .driveServer call => takesDecision (ep.answer call) (ep.view call.peer)
  | .retry call =>
    match (ep.slot call.peer).pending with
    | none => true
    | some p => call.now - p.lastSent < retryInterval || p.attempts < maxRetryAttempts ||
        (ep.slot call.peer).seen.isNone
  | _ => true

section

variable {setup : Setup N}

variable {s : Slot N}

theorem Tied.of_peer (h : s.peer.isSome) : Tied s := fun _ => h

theorem Tied.of_nothing (hs : s.seen = none) (hp : s.pending = none) : Tied s := by
  rintro (h | h)
  · rw [hs] at h; cases h
  · rw [hp] at h; cases h

theorem Tied.of_same (h : Tied s) (hs : s'.seen = s.seen) (hp : s'.pending = s.pending)
    (hpe : s'.peer = s.peer) : Tied s' := by
  unfold Tied
  rw [hs, hp, hpe]
  exact h

theorem Tied.nothing (h : Tied s) (hp : s.peer = none) : s.seen = none ∧ s.pending = none := by
  unfold Tied at h
  rw [hp] at h
  constructor
  · exact Option.not_isSome_iff_eq_none.mp fun hs => nomatch h (.inl hs)
  · exact Option.not_isSome_iff_eq_none.mp fun hs => nomatch h (.inr hs)

/-- A record of an address that is no peer is ignored if it is plaintext data, and a hello with a
valid cookie makes the address a peer unless it fails. -/
theorem process_vacant {localKey : N.Identity} {mode : SecurityMode}
    (hs : setup.security = .adaptiveServer localKey mode) {call : Call N} {l : Local N}
    {record : Record} (hp : l.slot.peer = none) :
    (record.kind = .plainData → process setup call l record = (setPeer l none, .ok ())) ∧
    (record.kind = .clientHello → record.payload.length = cookieLen →
      call.cookieValid record.payload = true → (process setup call l record).2 = .ok () →
        (process setup call l record).1.slot.peer.isSome) := by
  unfold process joinArm
  rw [hp, hs]
  constructor
  · intro hk
    rw [hk]
    rfl
  · intro hk hl hv
    rw [hk]
    dsimp only
    unfold clientHello
    rw [if_neg (by simp [hl, hv]), if_neg (by simp)]
    unfold greet
    split_ifs
    · nofun
    generalize sendReliable setup call (setPeer l none)
      ⟨.serverHello, 0, mode.toByte :: N.publicKey localKey⟩ 128 = sent
    obtain ⟨l', result⟩ := sent
    cases result with
    | error e => nofun
    | ok => exact fun _ => rfl

variable {mode : SecurityMode} {call : Call N} {l : Local N}

theorem tied_receiveRecord (hser : setup.security = .adaptiveServer localKey mode)
    (h : Tied l.slot)
    (ht : ∀ record, decodeRecord bytes (recordLimit setup l.shared.config) = .ok record →
      l.slot.peer.isSome ∨ record.kind = .plainData ∨ record.kind = .clientHello ∧
      record.payload.length = cookieLen ∧ call.cookieValid record.payload = true) :
    Tied (receiveRecord setup none initialSession call l bytes).1.slot := by
  have hr : Receives setup none initialSession call l bytes _ := receives_receiveRecord
  generalize receiveRecord setup none initialSession call l bytes = r at hr
  cases hr with
  | refused => exact h
  | @repeated _ _ response _ _ hp _ hl =>
    subst hl
    rcases hp.slot response with hs | ⟨-, -, hs⟩ <;> rw [hs]
    · exact h
    · exact h.of_same rfl rfl rfl
  | @processed record l₀ hd hb =>
    have hp := processes_process setup call l₀ record
    have hv := fun hn => @process_vacant N setup localKey mode hser call l₀ record hn
    generalize process setup call l₀ record = r at hp hv
    obtain ⟨l₁, result⟩ := r
    rcases @afterProcess_cases N none initialSession call l₁ result _ _ with
      ⟨-, -, -, -, -, hc⟩ | ⟨hke, hs⟩
    · exact .of_nothing (hc nofun).1 (hc nofun).2
    by_cases hpe : l₁.slot.peer.isSome
    · exact .of_peer (by rw [hs.peer]; exact hpe)
    have ho := hke.resolve_right hpe
    have hn : l₀.slot.peer = none := by
      by_contra hso
      exact hpe (hp.registered ho (Option.isSome_iff_ne_none.mpr hso))
    have hn' : l.slot.peer = none := hb.peer.symm.trans hn
    obtain ⟨hpl, hh⟩ := hv hn
    rcases ht record hd with hso | hk | ⟨hk, hl, hva⟩
    · rw [hn'] at hso
      cases hso
    · cases hpl hk
      have hse : l₀.slot.seen = l.slot.seen := by
        rcases hb.cache with ⟨-, hse, -⟩ | ⟨hco, -⟩
        · exact hse
        · exact absurd hk hco
      obtain ⟨hnos, hno⟩ := h.nothing hn'
      refine .of_nothing (hs.seen.trans (hse.trans hnos)) ?_
      exact hs.pending.elim (fun hp => hp.trans (hb.pending.trans hno)) id
    · exact absurd (hh hk hl hva ho) hpe

theorem sendReliable_takes (hk : setup.kind = .udp) {max : ℕ}
    (he : (encodeRecord record max).isOk = true) (ht : takesControl call l = true) :
    (sendReliable setup call l record max).2 = .ok () := by
  have hkc : setup.kind ≠ .kcp := by rw [hk]; nofun
  obtain ⟨hs, hr⟩ := Bool.and_eq_true_iff.mp ht
  unfold sendReliable
  split
  · rename_i heq
    rw [heq] at he
    cases he
  · rw [if_neg hkc, if_neg]
    · unfold sendTo
      rw [if_pos hs]
    simp only [Bool.or_eq_true, decide_eq_true_eq] at hr
    simp only [Bool.and_eq_true, Option.isNone_iff_eq_none, decide_eq_true_eq, not_and, not_le]
    intro hn
    rw [hn] at hr
    exact hr.resolve_left nofun

variable {t : DatagramTransport N}

theorem sendProtected_takes (hk : setup.kind = .udp)
    (he : encodable (protectedRecord t epoch kind data 64) 128 = true)
    (ht : takesControl call l = true) :
    (sendProtected setup call l t epoch kind data 64).2.2 = .ok () := by
  unfold sendProtected
  generalize protectedRecord t epoch kind data 64 = encoded at he
  obtain ⟨t', result⟩ := encoded
  cases result with
  | error e => cases he
  | ok record => exact sendReliable_takes hk he ht

variable {session : Handle}

theorem peer_sendOutbound (hki : setup.kind = .udp)
    (ht : ∀ o', (l.shared.resolveLatest o).2 = some o' → call.sendOk = true ∧
      encodable (encodeOutbound t c o' l.shared.config.maxBodyLen) l.shared.config.maxDatagramSize =
      true) :
    (sendOutbound setup call l session t c commands lastActivity deadline o).slot.peer.isSome := by
  have hk : setup.kind ≠ .kcp := by rw [hki]; nofun
  have hc := (Shared.kept_resolveLatest l.shared o).1
  unfold sendOutbound
  generalize l.shared.resolveLatest o = resolved at ht hc
  obtain ⟨shared, o'⟩ := resolved
  cases o' with
  | none => rfl
  | some o' =>
    obtain ⟨hse, he⟩ := ht o' rfl
    dsimp only at hc ⊢
    rw [hc]
    generalize encodeOutbound t c o' l.shared.config.maxBodyLen = encoded at he
    obtain ⟨t', result⟩ := encoded
    cases result with
    | error e => cases he
    | ok record =>
      have hs : (send setup call { l with shared := shared } record
          l.shared.config.maxDatagramSize).2 = .ok () := by
        unfold send
        rw [if_neg hk]
        unfold encodable at he
        dsimp only at he
        generalize encodeRecord record l.shared.config.maxDatagramSize = bytes at he
        cases bytes with
        | error e => cases he
        | ok bytes =>
          dsimp only
          rw [if_neg hk]
          unfold sendTo
          rw [if_pos hse]
      dsimp only
      generalize send setup call { l with shared := shared } record
        l.shared.config.maxDatagramSize = sent at hs
      obtain ⟨l', result⟩ := sent
      cases hs
      rfl

theorem tied_takeOutbound (hk : setup.kind = .udp) (h : Tied l.slot)
    (ht : takesOutbound call l o = true) : Tied (takeOutbound setup call l o).slot := by
  unfold takeOutbound
  split
  · rename_i session t c commands lastActivity deadline hp
    split_ifs with ha hm
    · exact h.of_same rfl rfl rfl
    · refine .of_peer (peer_sendOutbound hk fun o' ho' => ?_)
      have ho : (l.shared.resolveLatest o).2 = some o' := ho'
      change call.sendOk = true ∧ encodable (encodeOutbound t c o' l.shared.config.maxBodyLen)
        l.shared.config.maxDatagramSize = true
      simpa [takesOutbound, hp, ha, hm, ho] using ht
    · exact h
  · exact h

theorem peer_applyDecision (hk : setup.kind = .udp) (hr : call.eventRoom = true)
    (ht : takesControl call l = true)
    (he : encodable (protectedRecord t initialEpoch .authDecision [if accepted then 1 else 0,
      mode.toByte] 64) 128 = true) :
    (applyDecision setup call l session t mode accepted).slot.peer.isSome := by
  have hs := sendProtected_takes hk he ht
  unfold applyDecision
  generalize sendProtected setup call l t initialEpoch .authDecision
    [if accepted then 1 else 0, mode.toByte] 64 = sent at hs
  obtain ⟨l', t', result⟩ := sent
  cases hs
  dsimp only
  split
  · unfold pushEvent Shared.tryPushSessionEvent
    rw [hr]
    rfl
  · rfl

theorem peer_driveEstablished (hk : setup.kind = .udp)
    (ht : ∀ l' c' control, autoRekey call commands (takeCommand call l session c commands) = (l',
      c', some control) → takesControl call l' = true ∧
      encodable (protectedRecord t c'.epoch .control (encodeControl control) 64) 128 = true) :
    (driveEstablished setup call l session t c commands lastActivity deadline).slot.peer.isSome := by
  unfold driveEstablished
  generalize autoRekey call commands (takeCommand call l session c commands) = chosen at ht
  obtain ⟨l', c', control⟩ := chosen
  cases control with
  | none => rfl
  | some control =>
    obtain ⟨ht, he⟩ := ht _ _ _ rfl
    have hs := sendProtected_takes hk he ht
    dsimp only
    generalize sendProtected setup call l' t c'.epoch .control (encodeControl control) 64 = sent
      at hs
    obtain ⟨l'', t', result⟩ := sent
    cases hs
    rfl

theorem tied_driveServer (hk : setup.kind = .udp) (h : Tied l.slot)
    (ht : takesDecision call l = true) :
    Tied (driveServer setup call l).slot := by
  have hg : ∀ l' : Local N, Tied (removePeer l').slot := fun l' => .of_nothing rfl rfl
  unfold driveServer
  dsimp only
  split
  · split_ifs
    · exact hg _
    · exact h
  · split_ifs
    · exact hg _
    · exact h
  · split_ifs
    · exact hg _
    · exact h
  · split_ifs
    · exact hg _
    · exact h
  · rename_i session t mode authStarted hp
    split_ifs
    · exact hg _
    split
    · exact h
    rename_i accepted hd
    simp only [takesDecision, hp, hd, Bool.and_eq_true] at ht
    exact .of_peer (peer_applyDecision hk ht.1.1 ht.1.2 ht.2)
  · rename_i session t c commands lastActivity deadline hp
    split_ifs
    · exact hg _
    · exact hg _
    · refine .of_peer (peer_driveEstablished hk fun l' c' control hc => ?_)
      simpa [takesDecision, hp, hc] using ht
  · exact h

theorem tied_flushDeferred (h : Tied l.slot) : Tied (flushDeferred setup call l).slot := by
  unfold flushDeferred
  split
  · rename_i hp _
    have hp' : l.slot.peer.isSome := by rw [hp]; rfl
    split_ifs
    · exact h
    dsimp only
    split
    · exact .of_peer hp'
    split
    · exact .of_nothing rfl rfl
    split
    · exact .of_peer rfl
    split_ifs
    · exact .of_peer rfl
    · exact .of_nothing rfl rfl
  · exact h

theorem tied_retry (h : Tied l.slot) (hr : retry setup call l = (l', false)) : Tied l'.slot := by
  unfold retry at hr
  split at hr
  · cases hr
    exact h
  split at hr
  · cases hr
    exact h
  rename_i p hp
  split at hr
  · cases hr
    exact h
  split at hr
  · cases hr
  cases hr
  refine .of_peer ?_
  have hpe : l.slot.peer.isSome := h (.inr (by rw [hp]; rfl))
  rw [← (sameDriver_sendTo call l p.bytes).peer] at hpe
  exact hpe

theorem expired_retry (hr : retry setup call l = (l', true)) :
    ∃ p, l.slot.pending = some p ∧ ¬ call.now - p.lastSent < retryInterval ∧
      ¬ p.attempts < maxRetryAttempts ∧
      l' = { l with slot := { l.slot with pending := none } } := by
  unfold retry at hr
  split at hr
  · cases hr
  split at hr
  · cases hr
  rename_i p hp
  split at hr
  · cases hr
  rename_i hd
  split at hr
  · rename_i hl
    cases hr
    exact ⟨p, hp, hd, not_lt.mpr hl, rfl⟩
  · cases hr

/-- **One tended step** leaves no entry without a peer. -/
theorem tied_of_slotCase (hser : setup.security = .adaptiveServer localKey mode)
    (hki : setup.kind = .udp) (hre : ep.remote = none) (h : Tied (ep.slot a))
    (ht : tended setup ep input = true) (hc : SlotCase setup ep a input s') : Tied s' := by
  have hkc : setup.kind ≠ .kcp := by rw [hki]; nofun
  cases hc with
  | same => exact h
  | preflight hi _ hpr =>
    rw [handlePreflight_past (.inl hkc)] at hpr
    cases hpr
    exact h
  | refused _ hk | fed _ hk => exact absurd hk hkc
  | @served call bytes rest ha hfi =>
    rw [hre]
    refine tied_receiveRecord (l := ep.view a) hser h fun record hd => ?_
    have hd' : decodeRecord bytes (recordLimit setup ep.shared.config) = .ok record := hd
    change (ep.slot a).peer.isSome ∨ record.kind = .plainData ∨ record.kind = .clientHello ∧
      record.payload.length = cookieLen ∧ call.cookieValid record.payload = true
    simp only [tended, hfi, hd', Bool.or_eq_true, Bool.and_eq_true, decide_eq_true_eq]
      at ht
    tauto
  | taken hfi =>
    simp only [tended, hfi] at ht
    exact tied_takeOutbound (l := ep.view a) hki h ht
  | @cleaned request rest hfi =>
    rcases slot_cleanupPeer_cases (ep.view a) request.session with ⟨-, -, -, hk⟩ | hr
    · rw [hk]
      exact h.of_same rfl rfl rfl
    · rw [hr]
      exact .of_nothing rfl rfl
  | reclaimed =>
    unfold Endpoint.reclaim
    dsimp only
    split_ifs <;> exact h.of_same rfl rfl rfl
  | driven hpe =>
    subst hpe
    exact tied_driveServer (l := ep.view _) hki h ht
  | flushed => exact tied_flushDeferred (l := ep.view a) h
  | retried _ hr => exact tied_retry (l := ep.view a) h hr
  | @expired call l hpe hr =>
    subst hpe
    obtain ⟨p, hpen, hdu, hl, rfl⟩ := expired_retry hr
    have hp' : (ep.slot call.peer).pending = some p := hpen
    have hdu' : ¬ call.now - p.lastSent < retryInterval := hdu
    simp only [tended, hp', hdu', hl, decide_false, Bool.false_or,
      Option.isNone_iff_eq_none] at ht
    have hse : (ep.view call.peer).slot.seen = none := ht
    unfold expirePeer
    split
    · exact .of_nothing hse rfl
    split
    · exact .of_nothing hse rfl
    · split_ifs <;> exact .of_nothing hse rfl
  | failover hf => exact nomatch hre.symm.trans hf.remote

end

/-- Runs of a UDP server under a validated configuration. -/
def serverMachine (setup : Setup N) : Machine (Endpoint N) (Input N) where
  init ep := ∃ config room, config.validate room = .ok () ∧ ep = .server config
  step := step setup

/-- **What the wire remembers belongs to peers** in every tended run of a UDP server, so that the
response cache has at most one entry for each peer. -/
theorem wire_state_has_peer (setup : Setup N) {localKey : N.Identity} {mode : SecurityMode}
    (hser : setup.security = .adaptiveServer localKey mode) (hk : setup.kind = .udp)
    {ep : Endpoint N}
    (h : (serverMachine setup).Reach (fun ep input => tended setup ep input = true) ep) :
    (∀ a, (ep.slot a).seen.isSome ∨ (ep.slot a).pending.isSome → (ep.slot a).peer.isSome) ∧
      ∀ a, (ep.others a).seen ≤ (ep.others a).peers := by
  have hi : ep.remote = none ∧ ∀ a, Tied (ep.slot a) := by
    refine Machine.Reach.invariant (M := serverMachine setup)
      (I := fun ep => ep.remote = none ∧ ∀ a, Tied (ep.slot a)) ?_ ?_ h
    · rintro ep ⟨config, room, -, rfl⟩
      exact ⟨rfl, fun a => .of_nothing rfl rfl⟩
    rintro ep input ⟨hr, hti⟩ ht
    exact ⟨(framed_step setup hr input).remote.trans hr, fun a =>
      tied_of_slotCase hser hk hr (hti a) ht (slot_cases setup ep input a)⟩
  refine ⟨hi.2, fun a => ?_⟩
  change ep.countOthers a (fun s => s.seen.isSome) ≤ ep.countOthers a fun s => s.peer.isSome
  refine countP_mono fun b s hs hse => ?_
  have hsl : ep.slot b = s := by unfold Endpoint.slot; rw [hs]; rfl
  obtain ⟨hb, hse⟩ := Bool.and_eq_true_iff.mp hse
  have hp := hi.2 b
  rw [hsl] at hp
  exact Bool.and_eq_true_iff.mpr ⟨hb, hp (.inl hse)⟩

def single : RuntimeConfig := { RuntimeConfig.production with maxSessionsPerEndpoint := 1 }

def stranger : SocketAddr := ⟨.v4 2, 1⟩

def probed : Endpoint tagNoise :=
  (serverMachine (server .udp)).run (.server single)
    (arrive .udp { calm stranger 0 visitor.serverSeed with cookieValid := fun _ => false }
      (recordBytes ⟨.clientHello, 0, []⟩))

/-- The stranger is no peer, and its entry leaves no room in the cache for anybody else. -/
theorem stranger_fills_cache :
    (serverMachine (server .udp)).Reach (fun _ _ => True) probed ∧
      (probed.slot stranger).seen.isSome ∧ (probed.slot stranger).peer = none ∧
      seenRoom (probed.answer greeting) (probed.view home) = false := by
  refine ⟨.run_free (fun _ _ => trivial) _ (.start ⟨single, 3600000, by decide, rfl⟩),
    by decide +kernel, by decide +kernel, by decide +kernel⟩

theorem wire_state_has_peer_joined :
    ((joined .udp .production).slot home).pending.isSome ∧
      ((joined .udp .production).slot home).peer.isSome := by
  have hp : ((joined .udp .production).slot home).pending.isSome := by decide +kernel
  have h := wire_state_has_peer (server .udp) rfl rfl (Machine.reach_run
    (joinInputs .udp visitor home 0 1) (.start ⟨.production, 3600000, by decide, rfl⟩)
    (by decide +kernel))
  exact ⟨hp, h.1 home (.inr hp)⟩

end Rnet.Transport.ResponseCache
