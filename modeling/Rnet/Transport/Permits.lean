import Rnet.Transport.Admission
import Rnet.Transport.Joining
import Rnet.Transport.SlotCases

/-! # Permits of a listener and stale cleanup

The worker of a listener takes an admission permit when an address begins to join and gives it back
when nothing is left of the address. `Listener` is the worker with its admission controller: a step
asks the controller where the code does, and permits the step gives up are dropped there.

A closed session asks the worker for cleanup through a channel, and the address may have joined
again before the request is handled. The worker then compares sessions before it touches the peer,
but takes the permit and the rekey record in any case, and whatever the wire has if there is no peer
yet (`stale_cleanup_iff`). As long as that does not happen, and no KCP address that lost its permit
before it joined is greeted, an address that joins or is established holds a permit, so that each IP
key has at most as many of them as it may (`live_addresses_hold_permits`). -/

namespace Rnet.Transport.Permits

open Rnet.Core Lib.BigEndian Lib.FiniteMap Lib.GuardedRun Protocol.Records Security.Cipher
open Security.TagNoise Config State Slots Wire Process Maintenance KcpPreflight Worker Holdings
open Arms SlotCases Joining
open Admission (AdmissionController IpKey ipKey)

variable {N : Noise}

/-! ### Stale cleanup -/

/-- A cleanup of `session` finds the address without a peer entry, or with one that is not the
session's own. Between its preflight and its hello a KCP address that joins has no entry, only an
engine and a permit. -/
def stale (s : Slot N) (session : Handle) : Bool :=
  match s.peer with
  | some p => p.session ≠ some session
  | none => true

/-- Everything that belongs to the attempt at an address is the same. -/
structure SameAttempt (s s' : Slot N) : Prop where
  peer : s'.peer = s.peer
  engine : s'.engine = s.engine
  authorized : s'.authorized = s.authorized
  pending : s'.pending = s.pending
  seen : s'.seen = s.seen
  activeInput : s'.activeInput = s.activeInput
  activePending : s'.activePending = s.activePending
  preflight : s'.preflight = s.preflight
  permit : s'.permit = s.permit
  rekey : s'.rekey = s.rekey

def Unwired (s : Slot N) : Prop :=
  s.engine = none ∧ s.authorized = none ∧ s.pending = none ∧ s.seen = none ∧
    s.activeInput = none ∧ s.activePending = none

/-- **When a stale cleanup is a no-op**, at whatever stage the newer attempt is: it holds no permit
and no rekey record, and has a peer entry already or nothing in the wire. -/
theorem stale_cleanup_iff (ep : Endpoint N) (request : DatagramCleanup)
    (rest : List DatagramCleanup) (hf : ep.shared.cleanup = request :: rest)
    (hn : stale (ep.slot request.peer) request.session = true) :
    SameAttempt (ep.slot request.peer) (ep.cleanup.slot request.peer) ↔
      (ep.slot request.peer).permit = false ∧ (ep.slot request.peer).rekey = none ∧
        ((ep.slot request.peer).peer.isSome ∨ Unwired (ep.slot request.peer)) := by
  rw [slot_cleanup hf, if_pos rfl]
  unfold stale at hn
  cases hpee : (ep.slot request.peer).peer with
  | some p =>
    rw [hpee] at hn
    rw [slot_cleanupPeer_keep hpee (of_decide_eq_true hn)]
    constructor
    · intro h
      exact ⟨h.permit.symm, h.rekey.symm, .inl rfl⟩
    · rintro ⟨hpe, hr, -⟩
      exact ⟨rfl, rfl, rfl, rfl, rfl, rfl, rfl, rfl, hpe.symm, hr.symm⟩
  | none =>
    rw [slot_cleanupPeer_remove (l := ep.view request.peer) fun p hp => nomatch hpee.symm.trans hp]
    constructor
    · intro h
      exact ⟨h.permit.symm, h.rekey.symm, .inr ⟨h.engine.symm, h.authorized.symm, h.pending.symm,
        h.seen.symm, h.activeInput.symm, h.activePending.symm⟩⟩
    · rintro ⟨hpe, hr, hwi⟩
      obtain ⟨h₁, h₂, h₃, h₄, h₅, h₆⟩ := hwi.resolve_left nofun
      exact ⟨hpee.symm, h₁.symm, h₂.symm, h₃.symm, h₄.symm, h₅.symm, h₆.symm, rfl, hpe.symm,
        hr.symm⟩

def rejoin : List (Input tagNoise) :=
  .driveServer (calm home 120000 (9 : UInt64)) :: .reclaim (calm home 120000 (9 : UInt64)) ::
    arrive .udp (calm home 120001 (8 : UInt64))
      (recordBytes ⟨.clientHello, 0, List.replicate cookieLen 1⟩)

def rejoining : Endpoint tagNoise :=
  (Worker.machine (server .udp)).run (joined .udp .production) rejoin

/-- The cleanup of the old session takes the permit of the new handshake. -/
theorem stale_cleanup_takes_permit :
    (Worker.machine (server .udp)).Reach (fun _ _ => True) rejoining ∧
      rejoining.shared.cleanup = [⟨home, 1⟩] ∧ stale (rejoining.slot home) 1 = true ∧
      ¬ SameAttempt (rejoining.slot home) (rejoining.cleanup.slot home) := by
  refine ⟨?_, by decide +kernel, by decide +kernel, fun h => absurd h.permit (by decide +kernel)⟩
  refine .run_free (fun _ _ => trivial) _ (.run_free (fun _ _ => trivial) _ ?_)
  exact .start ⟨.production, 3600000, by decide, rfl, .inl rfl⟩

/-- The state after that cleanup, with another request for the old session. -/
def stripped : Endpoint tagNoise :=
  { rejoining.cleanup with
    shared := { rejoining.cleanup.shared with cleanup := [⟨home, 1⟩] } }

/-- The client comes back over KCP, and the first packet of its new conversation has arrived. -/
def packetAccepted : Endpoint tagNoise :=
  (Worker.machine (server .kcp)).run (joined .kcp .production)
    [.driveServer (calm home 120000 (9 : UInt64)), .reclaim (calm home 120000 (9 : UInt64)),
      .datagram (calm home 120001 (8 : UInt64)) (encodeHello 2 (List.replicate cookieLen 0))
        ⟨.ok (), .ok (), 0, false, []⟩,
      .datagram (calm home 120001 (8 : UInt64)) [] ⟨.ok (), .ok (), 0, false, []⟩]

/-- An attempt that has nothing left to lose keeps its peer entry; one that is between its preflight
and its hello loses engine and permit. -/
theorem stale_cleanup_iff_stripped :
    SameAttempt (stripped.slot home) (stripped.cleanup.slot home) ∧
      (packetAccepted.slot home).peer = none ∧ (packetAccepted.slot home).preflight = none ∧
      ¬ SameAttempt (packetAccepted.slot home) (packetAccepted.cleanup.slot home) := by
  refine ⟨?_, by decide +kernel, by decide +kernel, fun h => ?_⟩
  · exact (stale_cleanup_iff stripped ⟨home, 1⟩ [] rfl (by decide +kernel)).mpr
      ⟨by decide +kernel, by decide +kernel, .inl (by decide +kernel)⟩
  · have hc : packetAccepted.shared.cleanup = [⟨home, 1⟩] := by decide +kernel
    have hp := ((stale_cleanup_iff packetAccepted ⟨home, 1⟩ [] hc (by decide +kernel)).mp h).1
    exact absurd hp (by decide +kernel)

/-! ### The worker and its admission controller -/

/-- A server and its admission controller. -/
structure Listener (N : Noise) where
  endpoint : Endpoint N
  admission : AdmissionController

def Listener.open (config : RuntimeConfig) : Listener N where
  endpoint := .server config
  admission := .new config.maxSessionsPerIp config.handshakeRatePerIp config.handshakeBurstPerIp
    config.maxSessionsPerEndpoint config.ipv6AdmissionPrefixBits

/-- Whether a preflight datagram makes the worker ask for a permit. -/
def preflightAsks (setup : Setup N) (call : Call N) (l : Local N) (packet : Bytes) : Bool :=
  match setup.kind, decode packet, setup.security with
  | .kcp, some (.hello _ cookie), .adaptiveServer _ _ =>
    l.slot.engine.isNone && cookie.length = cookieLen && call.cookieValid cookie &&
      !l.slot.permit
  | _, _, _ => false

def site (ep : Endpoint N) : Input N → Option SocketAddr
  | .datagram call _ _ => some call.peer
  | .serve _ => ep.inbox.head?.map Prod.fst
  | .outbound _ => ep.receiver.head?.map Prod.fst
  | .cleanup => ep.shared.cleanup.head?.map DatagramCleanup.peer
  | .reclaim call => some call.peer
  | .driveServer call => some call.peer
  | .flushDeferred call => some call.peer
  | .retry call => some call.peer
  | _ => none

/-- Whether a step asks the admission controller for a permit. -/
def asks (setup : Setup N) (ep : Endpoint N) : Input N → Bool
  | .datagram call packet _ =>
    ep.idle && preflightAsks setup (ep.answer call) (ep.view call.peer) packet
  | .serve call =>
    match ep.inbox with
    | [] => false
    | (a, bytes) :: _ =>
      match decodeRecord bytes (recordLimit setup ep.shared.config) with
      | .error _ => false
      | .ok record =>
        ep.alive && needsPermit setup (ep.answer { call with peer := a }) (ep.view a) record
  | _ => false

def clock : Input N → Instant
  | .datagram call _ _ => call.now
  | .serve call => call.now
  | _ => 0

def grant (granted : Bool) : Input N → Input N
  | .datagram call packet kcp => .datagram { call with admission := granted } packet kcp
  | .serve call => .serve { call with admission := granted }
  | input => input

def admitted : Input N → Bool
  | .datagram call _ _ => call.admission
  | .serve call => call.admission
  | _ => false

/-- A step of the listener: it asks for a permit where the worker does, and a permit that was held or
taken and is not held afterwards is dropped. -/
def step (setup : Setup N) (l : Listener N) (input : Input N) : Listener N :=
  match site l.endpoint input with
  | none => { l with endpoint := Worker.step setup l.endpoint input }
  | some a =>
    if asks setup l.endpoint input then
      let answer := l.admission.tryAcquireAt a.ip (clock input * 1000000)
      let ep := Worker.step setup l.endpoint (grant answer.2.isOk input)
      { endpoint := ep
        admission := if answer.2.isOk && !(ep.slot a).permit then
          answer.1.dropPermit (answer.1.key a.ip) else answer.1 }
    else
      let ep := Worker.step setup l.endpoint input
      { endpoint := ep
        admission := if (l.endpoint.slot a).permit && !(ep.slot a).permit then
          l.admission.dropPermit (l.admission.key a.ip) else l.admission }

def machine (setup : Setup N) (config : RuntimeConfig) : Machine (Listener N) (Input N) where
  init l := (∃ room, config.validate room = .ok ()) ∧ l = .open config
  step := step setup

/-! ### Who holds permits -/

/-- What an address that joins or is established owns. -/
structure Holds (setup : Setup N) (s : Slot N) : Prop where
  permit : live s.peer = true → s.permit = true
  preflight : live s.peer = true ∨ setup.kind ≠ .kcp → s.preflight = none
  engine : live s.peer = true → setup.kind = .kcp → s.engine.isSome

variable {setup : Setup N}

theorem Holds.of_vacant (h : Holds setup s) (hl : live s'.peer = false)
    (hp : s'.preflight = s.preflight) : Holds setup s' := by
  refine ⟨fun h' => ?_, fun h' => ?_, fun h' => ?_⟩
  · rw [hl] at h'; cases h'
  · rw [hl] at h'
    rw [hp]
    exact h.preflight (.inr (h'.resolve_left nofun))
  · rw [hl] at h'; cases h'

theorem Holds.of_quiet (h : Holds setup l.slot) (hq : Quiet l l') : Holds setup l'.slot := by
  refine ⟨fun hl => hq.permit.trans (h.permit (hq.joins hl)), fun hl => ?_, fun hl hk => ?_⟩
  · rw [hq.preflight]
    exact h.preflight (hl.imp_left hq.joins)
  have hpe : l'.slot.peer.isSome := by
    cases hp : l'.slot.peer with
    | none => rw [hp] at hl; cases hl
    | some p => rfl
  exact (hq.kept hpe).engine (h.engine (hq.joins hl) hk)

/-- What the steps of an orderly run avoid: cleanup of a session at an address that joins or has
another session by now, and a greeting to an address that was challenged and has no permit. -/
def orderly (setup : Setup N) (ep : Endpoint N) : Input N → Bool
  | .cleanup =>
    match ep.shared.cleanup with
    | [] => true
    | request :: _ => !live (ep.slot request.peer).peer ||
        (ep.slot request.peer).peer.bind Peer.session = some request.session
  | .serve call =>
    match ep.inbox with
    | [] => true
    | (a, bytes) :: _ =>
      match (ep.slot a).peer, decodeRecord bytes (recordLimit setup ep.shared.config) with
      | some (.cookie _), .ok record => (ep.slot a).permit ||
        !(record.kind = .clientHello && record.payload.length = cookieLen &&
          call.cookieValid record.payload)
      | _, _ => true
  | _ => true

section

variable {setup : Setup N} {ep : Endpoint N} {b : SocketAddr} {input : Input N} {s' : Slot N}

variable {remote : Option SocketAddr} {call : Call N} {l : Local N} {packet : Bytes}

theorem holds_handlePreflight (h : Holds setup l.slot)
    (hr : handlePreflight setup remote call l packet = r) : Holds setup r.1.slot := by
  subst hr
  by_cases hp : setup.kind ≠ .kcp ∨ l.slot.engine.isSome
  · rw [handlePreflight_past hp]
    exact h
  have hpe := (sameDriver_handlePreflight setup remote call l packet).peer
  push Not at hp
  have hli : ¬ live l.slot.peer = true := fun hl => hp.2 (h.engine hl hp.1)
  refine ⟨fun h' => ?_, fun h' => ?_, fun h' => ?_⟩ <;> rw [hpe] at h'
  · exact absurd h' hli
  · exact absurd hp.1 (h'.resolve_left hli)
  · exact absurd h' hli

theorem holds_endPreflight (h : Holds setup l.slot) :
    Holds setup (Endpoint.endPreflight l).slot := by
  unfold Endpoint.endPreflight
  split_ifs
  · exact ⟨h.permit, fun _ => rfl, h.engine⟩
  · exact h

theorem holds_receiveKcp (h : Holds setup l.slot) (hk : setup.kind = .kcp)
    (hr : receiveKcp call l kcp = r) : Holds setup r.1.slot := by
  subst hr
  have hp := (sameDriver_receiveKcp call l kcp).peer
  by_cases hl : live l.slot.peer = true
  · obtain ⟨e, he⟩ := Option.isSome_iff_exists.mp (h.engine hl hk)
    unfold receiveKcp
    rw [he]
    dsimp only
    split <;> exact ⟨h.permit, h.preflight, fun _ _ => rfl⟩
  · refine ⟨fun h' => ?_, fun h' => ?_, fun h' => ?_⟩
    · rw [hp] at h'; exact absurd h' hl
    · rw [hp] at h'; exact absurd hk (h'.resolve_left hl)
    · rw [hp] at h'; exact absurd h' hl

variable {initialSession : Option Handle} {bytes : Bytes}

theorem preflight_receiveRecord :
    (receiveRecord setup remote initialSession call l bytes).1.slot.preflight = l.slot.preflight := by
  have hr : Receives setup remote initialSession call l bytes _ := receives_receiveRecord
  generalize receiveRecord setup remote initialSession call l bytes = r at hr
  cases hr with
  | refused => rfl
  | @repeated _ _ response _ _ hp _ hl =>
    subst hl
    rcases hp.slot response with hs | ⟨-, -, hs⟩ <;> rw [hs]
  | @processed record l₀ _ hb =>
    have hp := (processes_process setup call l₀ record).echo.preflight.trans hb.preflight
    generalize process setup call l₀ record = r at hp
    obtain ⟨l₁, result⟩ := r
    rcases @afterProcess_cases N remote initialSession call l₁ result _ _ with
      ⟨-, -, -, hk, -, -⟩ | ⟨-, hs⟩
    · exact hk.trans hp
    · exact hs.preflight.trans hp

theorem holds_receiveRecord (h : Holds setup l.slot)
    (hpr : l.slot.preflight = none)
    (hc : ∀ expiresAt record, l.slot.peer = some (.cookie expiresAt) →
      decodeRecord bytes (recordLimit setup l.shared.config) = .ok record →
      record.kind = .clientHello → record.payload.length = cookieLen →
      call.cookieValid record.payload = true → l.slot.permit = true) :
    Holds setup (receiveRecord setup remote initialSession call l bytes).1.slot := by
  have hr : Receives setup remote initialSession call l bytes _ := receives_receiveRecord
  generalize receiveRecord setup remote initialSession call l bytes = r at hr
  cases hr with
  | refused => exact h
  | @repeated _ _ response _ _ hp _ hl =>
    subst hl
    rcases hp.slot response with hs | ⟨-, -, hs⟩ <;> rw [hs]
    · exact h
    · exact ⟨fun _ => rfl, h.preflight, h.engine⟩
  | @processed record l₀ hd hb =>
    have hp := processes_process setup call l₀ record
    generalize process setup call l₀ record = r at hp
    obtain ⟨l₁, result⟩ := r
    have hno : l₁.slot.preflight = none :=
      (hp.echo.preflight.trans hb.preflight).trans hpr
    rcases @afterProcess_cases N remote initialSession call l₁ result _ _ with
      ⟨-, -, hpe, hke, -, -⟩ | ⟨-, hs⟩
    · refine h.of_vacant (by rw [hpe]; rfl) ?_
      rw [hke, hno, hpr]
    refine ⟨fun hl => ?_, fun _ => hs.preflight.trans hno, fun hl hk => ?_⟩
    · rw [hs.permit, show l₁.slot.permit = l₀.slot.permit from hp.echo.permit]
      rw [hs.peer] at hl
      rcases hb.permit with ⟨hn, hsa⟩ | ⟨-, -, ht⟩
      · rw [hsa]
        rcases hp.joins hl with hli | ⟨hg, -⟩
        · rw [hb.peer] at hli
          exact h.permit hli
        -- a hello that is greeted needed a permit, unless it has one or was challenged before
        obtain ⟨_, _, hse⟩ := hg.server
        rcases hg.vacant with hv | ⟨expiresAt, hv⟩ <;> rw [hb.peer] at hv
        · unfold needsPermit at hn
          rw [hse] at hn
          simpa [hg.hello, hv, hg.cookie] using hn
        · exact hc _ _ hv hd hg.hello hg.cookie.1 hg.cookie.2
      · exact ht
    · rw [hs.engine]
      rw [hs.peer] at hl
      rcases hp.joins hl with hli | ⟨-, he⟩
      · rw [hb.peer] at hli
        refine hp.echo.engine ?_
        rw [hb.engine]
        exact h.engine hli hk
      · exact he hk

theorem holds_cleanupPeer (h : Holds setup l.slot)
    (ho : live l.slot.peer = true → l.slot.peer.bind Peer.session = some session) :
    Holds setup (cleanupPeer l session).slot := by
  rcases slot_cleanupPeer_cases l session with ⟨p, hpe, hs, hk⟩ | hr
  · rw [hk]
    refine h.of_vacant (Bool.eq_false_iff.mpr fun hl => hs ?_) rfl
    have := ho hl
    rwa [hpe] at this
  · rw [hr]
    exact h.of_vacant rfl rfl

theorem holds_reclaim (now : Instant) (h : Holds setup l.slot) :
    Holds setup (Endpoint.reclaim now l).slot := by
  by_cases hli : live l.slot.peer = true ∨ setup.kind ≠ .kcp
  · have hpr := h.preflight hli
    unfold Endpoint.reclaim
    simp only [hpr, Option.any_none, Bool.false_eq_true, if_false, Option.isSome_none,
      Bool.or_false]
    refine ⟨fun hl => ?_, fun _ => rfl, h.engine⟩
    have hpe : l.slot.peer.isSome := by
      cases hp : l.slot.peer with
      | none => rw [hp] at hl; cases hl
      | some p => rfl
    rw [h.permit hl, hpe]
    rfl
  · have hpe := (Steps.still_reclaim now l).peer
    refine ⟨fun h' => ?_, fun h' => ?_, fun h' => ?_⟩ <;> rw [hpe] at h'
    · exact absurd (.inl h') hli
    · exact absurd h' hli
    · exact absurd (.inl h') hli

/-- **One orderly step** keeps what the addresses own. -/
theorem holds_of_slotCase (hre : ep.remote = none) (h : Holds setup (ep.slot b))
    (hin : ∀ e ∈ ep.inbox, (ep.slot e.1).preflight = none)
    (ho : orderly setup ep input = true) (hc : SlotCase setup ep b input s') :
    Holds setup s' := by
  cases hc with
  | same => exact h
  | preflight hid hp hpr => exact holds_handlePreflight (l := ep.view b) h hpr
  | refused hp hk hpr hi =>
    exact holds_receiveKcp (holds_handlePreflight (l := ep.view b) h hpr) hk hi
  | fed hp hk hpr hi =>
    exact holds_endPreflight
      (holds_receiveKcp (holds_handlePreflight (l := ep.view b) h hpr) hk hi)
  | @served call bytes rest ha hfi =>
    refine holds_receiveRecord (l := ep.view b) h ?_ ?_
    · exact hin (b, bytes) (by rw [hfi]; exact List.mem_cons_self)
    intro expiresAt record hp hd hhe hle hv
    have hp' : (ep.slot b).peer = some (.cookie expiresAt) := hp
    have hd' : decodeRecord bytes (recordLimit setup ep.shared.config) = .ok record := hd
    have hv' : call.cookieValid record.payload = true := hv
    simp only [orderly, hfi, hp', hd'] at ho
    change (ep.slot b).permit = true
    simpa [hhe, hle, hv'] using ho
  | taken hfi => exact h.of_quiet (l := ep.view b) (quiet_takeOutbound ..)
  | cleaned hfi hp =>
    subst hp
    refine holds_cleanupPeer (l := ep.view _) h fun hli => ?_
    have hl' : live (ep.slot _).peer = true := hli
    simp only [orderly, hfi, hl', Bool.not_true, Bool.false_or, decide_eq_true_eq] at ho
    exact ho
  | reclaimed hp => exact holds_reclaim (l := ep.view b) _ h
  | driven hp => exact h.of_quiet (l := ep.view b) (quiet_driveServer ..)
  | flushed hp => exact h.of_quiet (l := ep.view b) (quiet_flushDeferred ..)
  | @retried call l hp hr =>
    have hh := held_retry setup (ep.answer call) (ep.view b)
    have hp := (sameDriver_retry setup (ep.answer call) (ep.view b)).peer
    rw [hr] at hh hp
    exact h.of_quiet (.of_held hh fun hl => by rwa [hp] at hl)
  | @expired call l hp hr =>
    have hh := held_retry setup (ep.answer call) (ep.view b)
    rw [hr] at hh
    exact h.of_quiet (l := ep.view b) (quiet_expirePeer ep.remote call hh)
  | failover hf hb => exact nomatch hre.symm.trans hf.remote

theorem permit_authorizePeer (call : Call N) (l : Local N) (conv : ℕ) :
    (authorizePeer call l conv).1.slot.permit = l.slot.permit := by
  unfold authorizePeer
  split
  · rfl
  split
  · rfl
  split
  · split <;> rfl
  · split <;> rfl

/-- A preflight leaves the permit of the address alone, or is a hello with a valid cookie; if it is
not consumed it leaves everything. -/
theorem handlePreflight_cases (remote : Option SocketAddr) (call : Call N) (l : Local N)
    (packet : Bytes) :
    ((handlePreflight setup remote call l packet).1.slot.permit = l.slot.permit ∧
      ((handlePreflight setup remote call l packet).2 = .ok false →
        (handlePreflight setup remote call l packet).1 = l)) ∨
    ((l.slot.permit = true ∨ preflightAsks setup call l packet = true) ∧
      ∃ conv, handlePreflight setup remote call l packet = (admitHello call l conv, .ok true)) := by
  unfold handlePreflight
  split
  · exact .inl ⟨rfl, fun _ => rfl⟩
  rename_i hp
  push Not at hp
  split
  · rename_i conv cookie _ _ hd hs
    split_ifs with hv
    · refine .inr ⟨?_, _, rfl⟩
      by_cases hhe : l.slot.permit = true
      · exact .inl hhe
      right
      unfold preflightAsks
      rw [hp.1, hd, hs]
      simp [hv, hhe, Option.not_isSome_iff_eq_none.mp hp.2]
    · exact .inl ⟨(held_sendTo ..).permit, nofun⟩
  · rename_i conv cookie _ _ _
    left
    split_ifs
    · have hh := (held_sendTo call l (encodeHello conv cookie)).permit
      split <;> rename_i he <;> rw [he] at hh
      · exact ⟨hh, nofun⟩
      rename_i l₁
      have ha := permit_authorizePeer call l₁ conv
      split <;> rename_i he' <;> rw [he'] at ha
      · exact ⟨ha.trans hh, nofun⟩
      rename_i l₂
      have hse := (echo_sendReliable setup call l₂ ⟨.clientHello, 0, cookie⟩ 128).1.permit
      split <;> rename_i he'' <;> rw [he''] at hse <;>
        exact ⟨hse.trans (ha.trans hh), nofun⟩
    · exact ⟨rfl, fun _ => rfl⟩
  · exact .inl ⟨rfl, fun _ => rfl⟩
  · left
    split_ifs <;> exact ⟨rfl, fun _ => rfl⟩

theorem permit_handlePreflight (hr : handlePreflight setup remote call l packet = r)
    (hp : r.1.slot.permit = true) :
    l.slot.permit = true ∨ preflightAsks setup call l packet = true ∧ call.admission = true := by
  subst hr
  rcases handlePreflight_cases remote call l packet with ⟨hs, -⟩ | ⟨has, conv, he⟩
  · exact .inl (hs.symm.trans hp)
  by_cases hh : l.slot.permit = true
  · exact .inl hh
  refine .inr ⟨has.resolve_left hh, ?_⟩
  by_contra ha
  rw [he] at hp
  unfold admitHello at hp
  rw [if_pos (by simp [hh, ha])] at hp
  exact hh hp

theorem same_of_fed (hpr : handlePreflight setup remote call l packet = (l₁, .ok false))
    (hi : receiveKcp call l₁ kcp = (l', r)) :
    l'.slot.permit = l.slot.permit ∧ l'.slot.preflight = l.slot.preflight := by
  obtain ⟨hpe, hp, -⟩ := receiveKcp_cases call l₁ kcp
  rw [hi] at hpe hp
  have hl : l₁ = l := by
    rcases @handlePreflight_cases N setup remote call l packet with ⟨-, hs⟩ | ⟨-, conv, he⟩
    · rw [hpr] at hs
      exact hs rfl
    · rw [hpr] at he
      cases he
  subst hl
  exact ⟨hpe, hp⟩

theorem permit_receiveRecord
    (hpe : (receiveRecord setup remote initialSession call l bytes).1.slot.permit = true) :
    l.slot.permit = true ∨ ∃ record,
      decodeRecord bytes (recordLimit setup l.shared.config) = .ok record ∧
        needsPermit setup call l record = true ∧ call.admission = true := by
  have hr : Receives setup remote initialSession call l bytes _ := receives_receiveRecord
  generalize receiveRecord setup remote initialSession call l bytes = r at hr hpe
  cases hr with
  | refused => exact .inl hpe
  | @repeated record _ response _ hd hp _ hl =>
    subst hl
    rcases hp.slot response with hs | ⟨hn, ha, -⟩
    · exact .inl (hs ▸ hpe)
    · exact .inr ⟨record, hd, hn, ha⟩
  | @processed record l₀ hd hb =>
    have hp := (processes_process setup call l₀ record).echo.permit
    generalize process setup call l₀ record = r at hp hpe
    obtain ⟨l₁, result⟩ := r
    have hst : l₀.slot.permit = true := by
      rcases @afterProcess_cases N remote initialSession call l₁ result _ _ with
        ⟨-, -, -, -, hk, -⟩ | ⟨-, hs⟩
      · exact hp.symm.trans (hk hpe)
      · exact hp.symm.trans (hs.permit.symm.trans hpe)
    rcases hb.permit with ⟨-, hsa⟩ | ⟨hn, ha, -⟩
    · exact .inl (hsa.symm.trans hst)
    · exact .inr ⟨record, hd, hn, ha⟩

/-- A permit is only taken where the controller was asked and said yes. -/
theorem permit_of_slotCase (hc : SlotCase setup ep b input s') (hre : ep.remote = none)
    (hp : s'.permit = true) : (ep.slot b).permit = true ∨
      asks setup ep input = true ∧ admitted input = true := by
  cases hc with
  | same => exact .inl hp
  | preflight hid hpe hpr =>
    subst hpe
    refine (permit_handlePreflight hpr hp).imp id fun ⟨has, ha⟩ => ⟨?_, ha⟩
    simp only [asks, hid, has, Bool.and_self]
  | refused hpe hkc hpr hi => exact .inl ((same_of_fed hpr hi).1.symm.trans hp)
  | @fed call packet kcp l l' delivered hpe hkc hpr hi =>
    have he : (Endpoint.endPreflight l').slot.permit = l'.slot.permit := by
      unfold Endpoint.endPreflight
      split_ifs <;> rfl
    exact .inl ((same_of_fed hpr hi).1.symm.trans (he.symm.trans hp))
  | served hal hfi =>
    refine (permit_receiveRecord hp).imp id fun ⟨record, hd, hn, ha⟩ =>
      ⟨?_, ha⟩
    have hd' : decodeRecord _ (recordLimit setup ep.shared.config) = .ok record := hd
    simp only [asks, hfi, hd', hal, hn, Bool.and_self]
  | taken hfi => exact .inl ((quiet_takeOutbound ..).permit.symm.trans hp)
  | cleaned hfi hpe =>
    cases hp
  | @reclaimed call hpe =>
    unfold Endpoint.reclaim at hp
    simp only [Bool.and_eq_true] at hp
    obtain ⟨hk, -⟩ := hp
    split_ifs at hk
    exact .inl hk
  | driven hpe => exact .inl ((quiet_driveServer ..).permit.symm.trans hp)
  | flushed hpe => exact .inl ((quiet_flushDeferred ..).permit.symm.trans hp)
  | @retried call l hpe hr =>
    have hh := (held_retry setup (ep.answer call) (ep.view b)).permit
    rw [hr] at hh
    exact .inl (hh.symm.trans hp)
  | @expired call l hpe hr =>
    have hh := held_retry setup (ep.answer call) (ep.view b)
    rw [hr] at hh
    exact .inl ((quiet_expirePeer ep.remote call hh).permit.symm.trans hp)
  | failover hf => exact nomatch hre.symm.trans hf.remote

theorem slot_of_site_ne (hr : ep.remote = none) (hb : site ep input ≠ some b) :
    (Worker.step setup ep input).slot b = ep.slot b := by
  have hc := slot_cases setup ep input b
  generalize (Worker.step setup ep input).slot b = s' at hc ⊢
  cases hc with
  | same => rfl
  | preflight hid hp hpr | refused hp hk hpr hi
  | fed hp hk hpr hi => exact absurd (congrArg some hp) hb
  | served ha hfi | taken hfi => exact absurd (by simp [site, hfi]) hb
  | cleaned hfi hp => exact absurd (by simp [site, hfi, hp]) hb
  | reclaimed hp | driven hp | flushed hp | retried hp hre
  | expired hp hre => exact absurd (congrArg some hp) hb
  | failover hf => exact nomatch hr.symm.trans hf.remote

end

/-! ### Runs of the listener -/

variable {ep : Endpoint N} {input : Input N}

theorem preflight_of_slotCase (hc : SlotCase setup ep b input s') (hre : ep.remote = none)
    (hb : ep.idle = false) (h : (ep.slot b).preflight = none) : s'.preflight = none := by
  cases hc with
  | same => exact h
  | preflight hid hp hpr => exact nomatch hb.symm.trans hid
  | refused hp hk hpr hi => exact (same_of_fed hpr hi).2.trans h
  | @fed call packet kcp l l' delivered hp hk hpr hi =>
    unfold Endpoint.endPreflight
    split_ifs
    · rfl
    · exact (same_of_fed hpr hi).2.trans h
  | served ha hfi => exact preflight_receiveRecord.trans h
  | taken hfi => exact (quiet_takeOutbound ..).preflight.trans h
  | cleaned hfi hp =>
    unfold cleanupPeer
    dsimp only
    split_ifs <;> exact h
  | reclaimed hp =>
    unfold Endpoint.reclaim
    dsimp only
    split_ifs
    · rfl
    · exact h
  | driven hp => exact (quiet_driveServer ..).preflight.trans h
  | flushed hp => exact (quiet_flushDeferred ..).preflight.trans h
  | @retried call l hp hr =>
    have hh := (held_retry setup (ep.answer call) (ep.view b)).preflight
    rw [hr] at hh
    exact hh.trans h
  | @expired call l hp hr =>
    have hh := held_retry setup (ep.answer call) (ep.view b)
    rw [hr] at hh
    exact (quiet_expirePeer ep.remote call hh).preflight.trans h
  | failover hf => exact nomatch hre.symm.trans hf.remote

/-- What orderly steps keep at the worker. -/
structure Owned (setup : Setup N) (ep : Endpoint N) : Prop where
  remote : ep.remote = none
  holds : ∀ a, Holds setup (ep.slot a)
  inbox : ∀ e ∈ ep.inbox, (ep.slot e.1).preflight = none

theorem owned_step (h : Owned setup ep) (hor : orderly setup ep input = true) :
    Owned setup (Worker.step setup ep input) := by
  have hf := framed_step setup h.remote input
  have hh : ∀ a, Holds setup ((Worker.step setup ep input).slot a) := fun a =>
    holds_of_slotCase h.remote (h.holds a) h.inbox hor (slot_cases setup ep input a)
  refine ⟨hf.remote.trans h.remote, hh, fun e he => ?_⟩
  rcases hf.inbox e he with ho | hn
  · have hb : ep.idle = false := by
      cases hi : ep.inbox with
      | nil => rw [hi] at ho; cases ho
      | cons e l => simp [Endpoint.idle, hi]
    exact preflight_of_slotCase (slot_cases setup ep input e.1) h.remote hb (h.inbox e ho)
  · by_cases hk : setup.kind = .kcp
    · exact hn hk
    · exact (hh e.1).preflight (.inr hk)

def permitsOf (c : AdmissionController) (key : IpKey) (a : SocketAddr) (s : Slot N) : Bool :=
  s.permit && c.key a.ip = key

/-- The addresses of a key that join or are established. -/
def joinersOf (c : AdmissionController) (key : IpKey) (a : SocketAddr) (s : Slot N) : Bool :=
  live s.peer && c.key a.ip = key

/-- What orderly runs keep: the controller counts the permits the addresses hold. -/
structure Secured (setup : Setup N) (config : RuntimeConfig) (l : Listener N) : Prop
    extends Owned setup l.endpoint where
  limit : l.admission.maxActive = config.maxSessionsPerIp
  counts : ∀ key, l.admission.activeOf key = countP l.endpoint.slots (permitsOf l.admission key)
  active : ∀ key, l.admission.activeOf key ≤ l.admission.maxActive

theorem orderly_grant (setup : Setup N) (ep : Endpoint N) (granted : Bool) (input : Input N) :
    orderly setup ep (grant granted input) = orderly setup ep input := by
  cases input <;> rfl

theorem site_grant (ep : Endpoint N) (granted : Bool) (input : Input N) :
    site ep (grant granted input) = site ep input := by
  cases input <;> rfl

variable {a : SocketAddr}

theorem permit_of_asks (ha : asks setup ep input = true) (hs : site ep input = some a) :
    (ep.slot a).permit = false := by
  cases input with
  | datagram call packet kcp =>
    cases hs
    obtain ⟨-, hp⟩ := Bool.and_eq_true_iff.mp ha
    unfold preflightAsks at hp
    split at hp
    · simp only [Bool.and_eq_true, Bool.not_eq_true'] at hp
      exact hp.2
    · cases hp
  | serve call =>
    simp only [site] at hs
    simp only [asks] at ha
    split at ha
    · cases ha
    rename_i b bytes rest hi
    rw [hi] at hs
    cases hs
    split at ha
    · cases ha
    obtain ⟨-, hn⟩ := Bool.and_eq_true_iff.mp ha
    unfold needsPermit at hn
    split at hn
    · simp only [Bool.and_eq_true, Bool.not_eq_true'] at hn
      exact hn.1.1.2
    · cases hn
  | _ => cases ha

variable {config : RuntimeConfig}

theorem secured_of_step (h : Secured setup config l) (ho : Owned setup ep')
    (hl : l.admission.SameLimits c') (a : SocketAddr)
    (hs : ∀ b, b ≠ a → ep'.slot b = l.endpoint.slot b)
    (hc : ∀ key, c'.activeOf key + (if permitsOf l.admission key a (l.endpoint.slot a) then 1 else
      0) = l.admission.activeOf key + if permitsOf l.admission key a (ep'.slot a) then 1 else 0)
    (ha : ∀ key, c'.activeOf key ≤ l.admission.maxActive) : Secured setup config ⟨ep', c'⟩ := by
  refine ⟨ho, hl.maxActive.trans h.limit, fun key => ?_, fun key => ?_⟩
  · have hsa : (permitsOf c' key : SocketAddr → Slot N → Bool) = permitsOf l.admission key := by
      unfold permitsOf AdmissionController.key
      rw [hl.ipv6PrefixBits]
    have hco := countP_of_slot_ne (p := permitsOf l.admission key) a (fun _ => rfl) hs
    have hk := hc key
    rw [h.counts] at hk
    change c'.activeOf key = countP ep'.slots (permitsOf c' key)
    rw [hsa]
    omega
  · exact (ha key).trans hl.maxActive.ge

theorem secured_unasked (h : Secured setup config l) (hor : orderly setup l.endpoint input = true)
    (hsi : site l.endpoint input = some a) (ha : ¬ asks setup l.endpoint input = true) :
    Secured setup config
      { endpoint := Worker.step setup l.endpoint input
        admission :=
          if (l.endpoint.slot a).permit && !((Worker.step setup l.endpoint input).slot a).permit then
            l.admission.dropPermit (l.admission.key a.ip) else l.admission } := by
  have ho := owned_step h.toOwned hor
  have hs : ∀ b, b ≠ a → (Worker.step setup l.endpoint input).slot b = l.endpoint.slot b :=
    fun b hb => slot_of_site_ne h.remote fun he => hb (Option.some.inj (he.symm.trans hsi))
  have hk : ((Worker.step setup l.endpoint input).slot a).permit = true →
      (l.endpoint.slot a).permit = true := fun hp =>
    (permit_of_slotCase (slot_cases setup l.endpoint input a) h.remote hp).resolve_right
      fun hn => ha hn.1
  generalize Worker.step setup l.endpoint input = ep' at ho hs hk ⊢
  cases hol : (l.endpoint.slot a).permit <;> cases hn : (ep'.slot a).permit
  · refine secured_of_step h ho ⟨rfl, rfl, rfl, rfl, rfl⟩ a hs (fun key => ?_) h.active
    simp [permitsOf, hol, hn]
  · exact nomatch hol.symm.trans (hk hn)
  · change Secured setup config ⟨ep', l.admission.dropPermit (l.admission.key a.ip)⟩
    refine secured_of_step h ho (l.admission.sameLimits_dropPermit _) a hs (fun key => ?_)
      fun key => ?_
    · have hc := countP_of_slot_ne (p := permitsOf l.admission key) a (fun _ => rfl) hs
      rw [← h.counts] at hc
      simp only [permitsOf, hol, hn, Bool.true_and, Bool.false_and, decide_eq_true_eq,
        Bool.false_eq_true, if_false] at hc ⊢
      rw [AdmissionController.activeOf_dropPermit]
      simp only [@eq_comm _ key]
      omega
    · rw [AdmissionController.activeOf_dropPermit]
      exact (Nat.sub_le _ _).trans (h.active key)
  · refine secured_of_step h ho ⟨rfl, rfl, rfl, rfl, rfl⟩ a hs (fun key => ?_) h.active
    simp [permitsOf, hol, hn]

theorem secured_asked (h : Secured setup config l) (hor : orderly setup l.endpoint input = true)
    (hsi : site l.endpoint input = some a) (has : asks setup l.endpoint input = true)
    (han : l.admission.tryAcquireAt a.ip now = (c, result)) :
    Secured setup config
      { endpoint := Worker.step setup l.endpoint (grant result.isOk input)
        admission :=
          if result.isOk &&
            !((Worker.step setup l.endpoint (grant result.isOk input)).slot a).permit then
            c.dropPermit (c.key a.ip) else c } := by
  have hf := permit_of_asks has hsi
  have hc := l.admission.counts_tryAcquireAt a.ip now
  have hl := l.admission.sameLimits_tryAcquireAt a.ip now
  rw [han] at hc hl
  have ho := owned_step h.toOwned
    ((orderly_grant setup l.endpoint result.isOk input).trans hor)
  have hs : ∀ b, b ≠ a →
      (Worker.step setup l.endpoint (grant result.isOk input)).slot b = l.endpoint.slot b :=
    fun b hb => slot_of_site_ne h.remote fun he =>
      hb (Option.some.inj (he.symm.trans ((site_grant ..).trans hsi)))
  have hde : ((Worker.step setup l.endpoint (grant result.isOk input)).slot a).permit = true →
      result.isOk = true := by
    intro hpe
    rcases permit_of_slotCase (slot_cases setup l.endpoint (grant result.isOk input) a) h.remote
      hpe with hol | ⟨-, ha⟩
    · exact nomatch hf.symm.trans hol
    · cases input <;> first | exact ha | cases ha
  generalize Worker.step setup l.endpoint (grant result.isOk input) = ep' at ho hs hde ⊢
  rcases hc with ⟨e, rfl, hsa⟩ | ⟨rfl, hlt, hg⟩
  · have hn : (ep'.slot a).permit = false := Bool.eq_false_iff.mpr fun hp => nomatch hde hp
    change Secured setup config ⟨ep', c⟩
    refine secured_of_step h ho hl a hs (fun key => ?_) fun key => ?_
    · simp [permitsOf, hf, hn, hsa]
    · exact (hsa key).trans_le (h.active key)
  · cases hn : (ep'.slot a).permit
    · have hdr : ∀ key, (c.dropPermit (c.key a.ip)).activeOf key = l.admission.activeOf key := by
        intro key
        rw [AdmissionController.activeOf_dropPermit, hg,
          show c.key a.ip = l.admission.key a.ip by
            unfold AdmissionController.key; rw [hl.ipv6PrefixBits]]
        omega
      have hd := c.sameLimits_dropPermit (c.key a.ip)
      change Secured setup config ⟨ep', c.dropPermit (c.key a.ip)⟩
      refine secured_of_step h ho ⟨hd.maxActive.trans hl.maxActive,
        hd.burst.trans hl.burst, hd.refillPerSecond.trans hl.refillPerSecond,
        hd.maxEntries.trans hl.maxEntries,
        hd.ipv6PrefixBits.trans hl.ipv6PrefixBits⟩ a hs (fun key => ?_) fun key => ?_
      · simp [permitsOf, hf, hn, hdr]
      · exact (hdr key).trans_le (h.active key)
    · change Secured setup config ⟨ep', c⟩
      refine secured_of_step h ho hl a hs (fun key => ?_) fun key => ?_
      · simp [permitsOf, hf, hn, hg, @eq_comm _ key]
      rw [hg]
      split_ifs with hk
      · rw [hk]; exact hlt
      · exact h.active key

/-- **One orderly step of a listener.** -/
theorem secured_step (h : Secured setup config l) (ho : orderly setup l.endpoint input = true) :
    Secured setup config (step setup l input) := by
  unfold step
  split
  · rename_i hs
    have hsa : ∀ b, (Worker.step setup l.endpoint input).slot b = l.endpoint.slot b := fun b =>
      slot_of_site_ne h.remote (by rw [hs]; nofun)
    refine secured_of_step h (owned_step h.toOwned ho) ⟨rfl, rfl, rfl, rfl, rfl⟩
      (⟨.v4 0, 0⟩ : SocketAddr) (fun b _ => hsa b) (fun key => ?_) h.active
    rw [hsa]
  · rename_i a hs
    split_ifs with ha
    · exact secured_asked h ho hs ha rfl
    · exact secured_unasked h ho hs ha

theorem secured_open (setup : Setup N) (config : RuntimeConfig) :
    Secured setup config (.open config) := by
  refine ⟨⟨rfl, fun a => ?_, fun e he => nomatch he⟩, rfl, fun key => rfl, fun key => Nat.zero_le _⟩
  exact ⟨nofun, fun _ => rfl, nofun⟩

/-- What the admission of a listener is for. -/
structure Capped (config : RuntimeConfig) (l : Listener N) : Prop where
  held : ∀ a, live (l.endpoint.slot a).peer = true → (l.endpoint.slot a).permit = true
  counted : ∀ key, l.admission.activeOf key = countP l.endpoint.slots (permitsOf l.admission key)
  capped : ∀ key, countP l.endpoint.slots (joinersOf l.admission key) ≤ config.maxSessionsPerIp

/-- **Every address that joins or is established holds a permit** in every orderly run, so that an IP
key never has more of them than it may. -/
theorem live_addresses_hold_permits (setup : Setup N) (config : RuntimeConfig) {l : Listener N}
    (h : (machine setup config).Reach (fun l input => orderly setup l.endpoint input = true) l) :
    Capped config l := by
  have hl : Secured setup config l := by
    refine Machine.Reach.invariant (I := Secured setup config) ?_
      (fun l input hl ho => secured_step hl ho) h
    rintro l ⟨-, rfl⟩
    exact secured_open setup config
  refine ⟨fun a => (hl.holds a).permit, hl.counts, fun key => ?_⟩
  calc countP l.endpoint.slots (joinersOf l.admission key)
      ≤ countP l.endpoint.slots (permitsOf l.admission key) := countP_mono fun a s hs hli => by
        have hsl : l.endpoint.slot a = s := by unfold Endpoint.slot; rw [hs]; rfl
        obtain ⟨hj, hk⟩ := Bool.and_eq_true_iff.mp hli
        have hp := (hl.holds a).permit (by rw [hsl]; exact hj)
        rw [hsl] at hp
        exact Bool.and_eq_true_iff.mpr ⟨hp, hk⟩
    _ = l.admission.activeOf key := (hl.counts key).symm
    _ ≤ l.admission.maxActive := hl.active key
    _ = config.maxSessionsPerIp := hl.limit

def single : RuntimeConfig := { RuntimeConfig.production with maxSessionsPerIp := 1 }

def neighbour : SocketAddr := ⟨.v4 1, 2⟩

/-- A client joins, times out and joins again; the cleanup of its old session comes late, and the
neighbour says hello. -/
def overrun : Listener tagNoise :=
  (machine (server .udp) single).run (.open single)
    (joinInputs .udp visitor home 0 1 ++ rejoin ++ [.cleanup] ++
      arrive .udp (calm neighbour 121000 (8 : UInt64))
        (recordBytes ⟨.clientHello, 0, List.replicate cookieLen 1⟩))

theorem cap_overrun :
    (machine (server .udp) single).Reach (fun _ _ => True) overrun ∧ ¬ Capped single overrun := by
  refine ⟨.run_free (fun _ _ => trivial) _ (.start ⟨⟨3600000, by decide⟩, rfl⟩), fun h => ?_⟩
  exact absurd (h.capped (.v4 1)) (by decide +kernel)

/-- The listener while the client has its session. -/
def occupied : Listener tagNoise :=
  (machine (server .udp) single).run (.open single) (joinInputs .udp visitor home 0 1)

theorem live_addresses_hold_permits_occupied :
    live (occupied.endpoint.slot home).peer = true ∧ Capped single occupied := by
  refine ⟨by decide +kernel, live_addresses_hold_permits (server .udp) single ?_⟩
  exact Machine.reach_run _ (.start ⟨⟨3600000, by decide⟩, rfl⟩) (by decide +kernel)

end Rnet.Transport.Permits
