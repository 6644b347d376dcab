import Rnet.Transport.Joining

/-! # The byte counter of the KCP engines

A datagram wire counts the bytes its engines hold unacknowledged, and admits records against that
number. The calls of the wire are a machine of their own here, in any order and at any addresses:
whatever the driver does is one of their runs. What the KCP library makes of a packet is given by its
segments, processed in order up to the first one it refuses. A call that fails leaves the counter
alone, so it is exact as long as a packet that is refused retired nothing (`kcp_bytes_exact`); one
segment that retires before one that is refused leaves the counter too high for good
(`residue_of_refused_packet`). -/

namespace Rnet.Transport.KcpBudget

open Rnet.Core Lib.BigEndian Lib.FiniteMap Lib.GuardedRun Protocol.Records Security.Cipher
open Security.TagNoise Config Slots Wire KcpPreflight Worker Joining

variable {N : Noise}

/-! ### Calls of a wire -/

/-- One segment of a KCP packet: how many unacknowledged segments it retires, and whether the library
goes on after it or stops with an error. -/
structure Segment where
  retires : ℕ
  answer : Result Unit
  deriving DecidableEq

def Segment.accepted (s : Segment) : Bool := s.answer.isOk

/-- A packet as the library sees it, and whether the messages it completes can be received. -/
structure Packet where
  segments : List Segment
  received : Result Unit
  failed : Bool
  delivered : List Bytes

/-- `input` of the library: segments take effect in order, up to the first that is refused. -/
def feed (waitSnd : ℕ) : List Segment → ℕ × Result Unit
  | [] => (waitSnd, .ok ())
  | s :: rest =>
    match s.answer with
    | .error e => (waitSnd, .error e)
    | .ok () => feed (waitSnd - s.retires) rest

def Packet.input (p : Packet) (waitSnd : ℕ) : KcpInput where
  accepted := (feed waitSnd p.segments).2
  received := p.received
  waitSnd := (feed waitSnd p.segments).1
  failed := p.failed
  delivered := p.delivered

/-- Calls of the wire. -/
inductive WireCall
  | authorizePeer (conv : ℕ)
  | revokeAuthorization
  | receive (packet : Packet)
  | send (record : Record) (max : ℕ)
  | sendReliable (record : Record) (max : ℕ)
  | sendResponse (record : Record) (max : ℕ)
  | beginInput (bytes : Bytes)
  | endInput (success : Bool)
  | retry
  | flush (packets : List Bytes)
  | removePeer

def waitSnd (s : Slot N) : ℕ := (s.engine.map KcpEngine.waitSnd).getD 0

/-- One call of the wire. -/
def serveCall (setup : Setup N) (call : Call N) (l : Local N) : WireCall → Local N
  | .authorizePeer conv => (authorizePeer call l conv).1
  | .revokeAuthorization => { l with slot := { l.slot with authorized := none } }
  | .receive packet =>
    if setup.kind = .kcp then (receiveKcp call l (packet.input (waitSnd l.slot))).1 else l
  | .send record max => (send setup call l record max).1
  | .sendReliable record max => (sendReliable setup call l record max).1
  | .sendResponse record max => (sendResponse setup call l record max).1
  | .beginInput bytes => (beginInput setup call l bytes).1
  | .endInput success => endInput l success
  | .retry => (retry setup call l).1
  -- an update moves segments from the send queue to the send buffer and outputs packets
  | .flush packets => packets.foldl (fun l packet => (sendTo call l packet).1) l
  | .removePeer => removePeer l

def wire (setup : Setup N) : Machine (Endpoint N) (Call N × WireCall) where
  init ep := ∃ config, ep = .server config
  step ep input :=
    ep.put input.1.peer (serveCall setup (ep.answer input.1) (ep.view input.1.peer) input.2)

def slotBytes (c : RuntimeConfig) (s : Slot N) : ℕ := (s.engine.map (queuedBytes c)).getD 0

def engineBytes (ep : Endpoint N) : ℕ := total ep.slots (slotBytes ep.shared.config)

/-- A packet whose effects are all accounted for: it is taken as a whole, or nothing before the
refusal retires a segment. -/
def Packet.clean (p : Packet) : Bool :=
  p.received.isOk && p.segments.all Segment.accepted ||
    (p.segments.takeWhile Segment.accepted).all fun s => s.retires = 0

def clean (input : Call N × WireCall) : Bool :=
  match input.2 with
  | .receive packet => packet.clean
  | _ => true

/-! ### The library -/

theorem feed_of_accepted : ∀ (waitSnd : ℕ) {segments : List Segment},
    segments.all Segment.accepted = true → (feed waitSnd segments).2 = .ok ()
  | _, [], _ => rfl
  | waitSnd, ⟨retires, .error e⟩ :: rest, h => by
    rw [List.all_cons, Bool.and_eq_true] at h
    exact Bool.noConfusion h.1
  | waitSnd, ⟨retires, .ok ()⟩ :: rest, h => by
    rw [List.all_cons, Bool.and_eq_true] at h
    exact feed_of_accepted (waitSnd - retires) h.2

theorem feed_of_idle : ∀ (waitSnd : ℕ) {segments : List Segment},
    ((segments.takeWhile Segment.accepted).all fun s => s.retires = 0) = true →
      (feed waitSnd segments).1 = waitSnd
  | _, [], _ | _, ⟨_, .error _⟩ :: _, _ => rfl
  | waitSnd, ⟨retires, .ok ()⟩ :: rest, h => by
    rw [List.takeWhile_cons_of_pos rfl, List.all_cons, Bool.and_eq_true, decide_eq_true_eq] at h
    have hi := feed_of_idle (waitSnd - retires) h.2
    rw [show retires = 0 from h.1, Nat.sub_zero] at hi
    rw [feed, show retires = 0 from h.1, Nat.sub_zero]
    exact hi

theorem feed_zero : ∀ segments : List Segment, (feed 0 segments).1 = 0
  | [] | ⟨_, .error _⟩ :: _ => rfl
  | ⟨_, .ok ()⟩ :: rest => by
    rw [feed, Nat.zero_sub]
    exact feed_zero rest

/-- A clean packet that fails retired nothing. -/
theorem waitSnd_of_failed {p : Packet} (hc : p.clean = true) (waitSnd : ℕ)
    (hf : (p.input waitSnd).accepted ≠ .ok () ∨ (p.input waitSnd).received ≠ .ok ()) :
    (p.input waitSnd).waitSnd = waitSnd := by
  refine feed_of_idle waitSnd ?_
  unfold Packet.clean at hc
  rw [Bool.or_eq_true, Bool.and_eq_true] at hc
  refine hc.resolve_left fun ⟨hr, hs⟩ => ?_
  rcases hf with hf | hf
  · exact hf (feed_of_accepted waitSnd hs)
  · cases hp : p.received with
    | error e =>
      rw [hp] at hr
      exact Bool.noConfusion hr
    | ok u => exact hf hp

/-! ### Calls keep the balance -/

/-- The counter is what other addresses hold and what this one does. -/
structure Balanced (c : RuntimeConfig) (rest : ℕ) (l : Local N) : Prop where
  config : l.shared.config = c
  bytes : l.kcpQueuedBytes = rest + slotBytes c l.slot

namespace Balanced

variable {c : RuntimeConfig} {rest : ℕ} {l l' : Local N}

section

variable (h : Balanced c rest l)
include h

variable (call : Call N) (bytes : Bytes)

theorem frame (hs : l'.shared = l.shared) (hb : l'.kcpQueuedBytes = l.kcpQueuedBytes)
    (he : l'.slot.engine = l.slot.engine) : Balanced c rest l' :=
  ⟨by rw [hs]; exact h.config, by rw [hb, slotBytes, he]; exact h.bytes⟩

theorem sendTo : Balanced c rest (sendTo call l bytes).1 := by
  unfold Wire.sendTo
  split_ifs
  · exact h.frame rfl rfl rfl
  · exact h

theorem engine : Balanced c rest (engine call l).1 ∧
    ∀ e, (engine call l).2 = .ok e → (Wire.engine call l).1.slot.engine = some e := by
  unfold Wire.engine
  split <;> rename_i hen
  · rename_i e
    exact ⟨h, fun e' he => by cases he; exact hen⟩
  split
  · exact ⟨h, nofun⟩
  rename_i conv _
  have hs : Balanced c rest { l with slot := { l.slot with authorized := none } } :=
    h.frame rfl rfl rfl
  dsimp only
  split_ifs
  · exact ⟨hs, nofun⟩
  split <;> rename_i hn
  · exact ⟨hs, nofun⟩
  rename_i e
  have hem : slotBytes c l.slot = 0 := by rw [slotBytes, hen]; rfl
  have hno : queuedBytes c e = 0 := by
    unfold newEngine at hn
    split_ifs at hn
    cases hn
    exact Nat.zero_mul _
  refine ⟨⟨h.config, ?_⟩, fun e' he => by cases he; rfl⟩
  change l.kcpQueuedBytes = rest + queuedBytes c e
  rw [hno, ← hem]
  exact h.bytes

theorem queueKcp (control : Bool) : Balanced c rest (queueKcp call l bytes control).1 := by
  obtain ⟨hen, hf⟩ := h.engine call
  unfold Wire.queueKcp
  dsimp only
  split <;> rename_i heq <;> rw [heq] at hen hf
  · exact hen
  rename_i l₁ e
  have he : l₁.slot.engine = some e := hf e rfl
  split_ifs
  · exact hen
  split
  · exact hen
  rename_i e' _
  refine ⟨hen.config, ?_⟩
  have hb := hen.bytes
  rw [slotBytes, he] at hb
  change l₁.kcpQueuedBytes - queuedBytes l.shared.config e + queuedBytes l.shared.config e' =
    rest + queuedBytes c e'
  rw [h.config, hb]
  change rest + queuedBytes c e - queuedBytes c e + _ = _
  rw [Nat.add_sub_cancel]

theorem cacheResponse : Balanced c rest (cacheResponse call l bytes) := by
  unfold Wire.cacheResponse
  split
  · exact h
  split_ifs
  · exact h.frame rfl rfl rfl
  · exact h

end

variable {setup : Setup N}

variable (h : Balanced c rest l)
include h

variable (call : Call N)

theorem send (record : Record) (max : ℕ) : Balanced c rest (send setup call l record max).1 := by
  unfold Wire.send
  split
  · exact h
  split_ifs
  · exact h.queueKcp ..
  · exact h.sendTo ..

theorem sendReliable (record : Record) (max : ℕ) :
    Balanced c rest (sendReliable setup call l record max).1 := by
  unfold Wire.sendReliable
  split
  · exact h
  rename_i bytes _
  split_ifs
  · exact h.queueKcp ..
  · exact h
  have hs := h.sendTo call bytes
  split <;> rename_i l₁ he <;> rw [he] at hs
  · exact hs
  have hp : Balanced c rest { l₁ with slot := { l₁.slot with
      pending := some ⟨bytes, call.now, 1⟩ } } := hs.frame rfl rfl rfl
  exact hp.cacheResponse call bytes

theorem sendResponse (record : Record) (max : ℕ) :
    Balanced c rest (sendResponse setup call l record max).1 := by
  unfold Wire.sendResponse
  split
  · exact h
  rename_i bytes _
  split_ifs
  · exact h.queueKcp ..
  have hs := h.sendTo call bytes
  split <;> rename_i he <;> rw [he] at hs
  · exact hs
  · exact hs.cacheResponse call bytes

theorem beginInput (bytes : Bytes) : Balanced c rest (beginInput setup call l bytes).1 := by
  unfold Wire.beginInput
  split
  · exact h
  · split <;> exact h.frame rfl rfl rfl

theorem retry : Balanced c rest (retry setup call l).1 := by
  unfold Wire.retry
  split_ifs
  · exact h
  split
  · exact h
  rename_i p _
  split_ifs
  · exact h
  · exact h.frame rfl rfl rfl
  · exact (h.sendTo call p.bytes).frame rfl rfl rfl

theorem removePeer : Balanced c rest (removePeer l) := by
  refine ⟨h.config, ?_⟩
  have hb := h.bytes
  unfold Wire.removePeer
  rw [slotBytes] at hb ⊢
  split <;> rename_i he <;> rw [he] at hb
  · exact hb
  rename_i e
  rw [h.config, hb]
  exact Nat.add_sub_cancel rest (queuedBytes c e)

theorem authorizePeer (conv : ℕ) : Balanced c rest (authorizePeer call l conv).1 := by
  unfold KcpPreflight.authorizePeer
  split
  · exact h
  split
  · exact h
  split
  · split <;> exact h
  split
  · exact h
  · exact h.frame rfl rfl rfl

/-- A clean packet leaves the counter exact: an engine that was there follows the counter when the
call succeeds and does not change when it fails, and a new one has nothing to retire. -/
theorem receive {packet : Packet} (hc : packet.clean = true) :
    Balanced c rest (receiveKcp call l (packet.input (waitSnd l.slot))).1 := by
  unfold receiveKcp
  split <;> rename_i he
  · rename_i e
    have hwa : waitSnd l.slot = e.waitSnd := by rw [waitSnd, he]; rfl
    have hb := h.bytes
    rw [slotBytes, he] at hb
    -- a call that fails leaves the counter, and the packet retired nothing
    have hfa : (packet.input (waitSnd l.slot)).accepted ≠ .ok () ∨
        (packet.input (waitSnd l.slot)).received ≠ .ok () →
        l.kcpQueuedBytes = rest + (packet.input (waitSnd l.slot)).waitSnd * mss c := by
      intro hf
      rw [waitSnd_of_failed hc _ hf, hwa]
      exact hb
    split <;> rename_i hr
    · exact ⟨h.config, hfa (.inl (by rw [hr]; nofun))⟩
    · exact ⟨h.config, hfa (.inr (by rw [hr]; nofun))⟩
    · refine ⟨h.config, ?_⟩
      change l.kcpQueuedBytes - queuedBytes l.shared.config e +
        (packet.input (waitSnd l.slot)).waitSnd * mss l.shared.config =
          rest + (packet.input (waitSnd l.slot)).waitSnd * mss c
      rw [h.config, hb]
      change rest + queuedBytes c e - queuedBytes c e + _ = _
      rw [Nat.add_sub_cancel]
  · split
    · exact h
    have hs : Balanced c rest { l with slot := { l.slot with authorized := none } } :=
      h.frame rfl rfl rfl
    have hn : ∀ e : KcpEngine, Balanced c rest { l with slot := { l.slot with
        authorized := none
        engine := some { e with
          waitSnd := (packet.input (waitSnd l.slot)).waitSnd
          failed := (packet.input (waitSnd l.slot)).failed } } } := by
      intro e
      have hwa : (packet.input (waitSnd l.slot)).waitSnd = 0 := by
        rw [waitSnd, he]
        exact feed_zero packet.segments
      refine ⟨h.config, ?_⟩
      change l.kcpQueuedBytes = rest + (packet.input (waitSnd l.slot)).waitSnd * mss c
      rw [hwa, Nat.zero_mul, h.bytes, slotBytes, he]
      rfl
    dsimp only
    split
    · exact hs
    split
    · exact hs
    split
    · exact hs
    · split <;> exact hn _

theorem serveCall (hc : ∀ packet, input = .receive packet → packet.clean = true) :
    Balanced c rest (serveCall setup call l input) := by
  cases input with
  | authorizePeer conv => exact h.authorizePeer call conv
  | revokeAuthorization => exact h.frame rfl rfl rfl
  | receive packet =>
    unfold KcpBudget.serveCall
    split_ifs
    · exact h.receive call (hc packet rfl)
    · exact h
  | send record max => exact h.send call record max
  | sendReliable record max => exact h.sendReliable call record max
  | sendResponse record max => exact h.sendResponse call record max
  | beginInput bytes => exact h.beginInput call bytes
  | endInput success => exact h.frame rfl rfl rfl
  | retry => exact h.retry call
  | flush packets => exact List.foldlRecOn packets _ h fun _ hl packet _ => hl.sendTo call packet
  | removePeer => exact h.removePeer

end Balanced

/-! ### Runs -/

theorem exact_step (setup : Setup N) (h : ep.kcpQueuedBytes = engineBytes ep)
    (hc : clean input = true) :
    ((wire setup).step ep input).kcpQueuedBytes = engineBytes ((wire setup).step ep input) := by
  obtain ⟨call, input⟩ := input
  have he : slotBytes ep.shared.config (.empty N) = 0 := rfl
  obtain ⟨others, hb, ha⟩ := ep.total_put call.peer he
  have hv : Balanced ep.shared.config others (ep.view call.peer) := ⟨rfl, h.trans hb⟩
  have hp : ∀ packet, input = .receive packet → packet.clean = true := by
    rintro packet rfl
    exact hc
  have hs : Balanced ep.shared.config others
      (serveCall setup (ep.answer call) (ep.view call.peer) input) :=
    hv.serveCall (ep.answer call) hp
  rw [engineBytes, show ((wire setup).step ep (call, input)).shared.config = _ from hs.config]
  exact hs.bytes.trans (ha _).symm

/-- **The counter of the engines is exact.** After any calls of a wire, as long as the packets it
received were clean, the counter is what the engines hold; so nothing is left of it when no engine
is. -/
theorem kcp_bytes_exact {setup : Setup N} {ep : Endpoint N}
    (h : (wire setup).Reach (fun _ input => clean input = true) ep) :
    ep.kcpQueuedBytes = engineBytes ep ∧
      ((∀ a, (ep.slot a).engine = none) → ep.kcpQueuedBytes = 0) := by
  have he : ep.kcpQueuedBytes = engineBytes ep := by
    refine Machine.Reach.invariant (I := fun ep => ep.kcpQueuedBytes = engineBytes ep) ?_
      (fun ep input hep hc => exact_step setup hep hc) h
    rintro _ ⟨config, rfl⟩
    rfl
  refine ⟨he, fun hn => he.trans (total_eq_zero fun a s hs => ?_)⟩
  have hsl : (ep.slot a).engine = none := hn a
  rw [Endpoint.slot, hs] at hsl
  rw [slotBytes, show s.engine = none from hsl]
  rfl

/-! ### Two packets -/

/-- A record waits in the engine of an authorized peer, and its segment has left. -/
def queuedOne : List (Call tagNoise × WireCall) :=
  let call : Call tagNoise := calm home 0 (9 : UInt64)
  let header : Bytes := [1, 0, 0, 0, 81, 0, 128, 0, 0, 0, 0, 0, 0, 0, 0, 0, 0, 0, 0, 0, 20, 0, 0, 0]
  [(call, .authorizePeer 1), (call, .sendReliable ⟨.clientHello, 0, []⟩ 128),
    (call, .flush [header ++ recordBytes ⟨.clientHello, 0, []⟩])]

def after (calls : List WireCall) : Endpoint tagNoise :=
  (wire (Joining.server .kcp)).run (.server .production)
    (queuedOne ++ calls.map fun c => (calm home 0 (9 : UInt64), c))

theorem kcp_bytes_exact_acknowledged :
    (after []).kcpQueuedBytes = 1176 ∧
      (after [.receive ⟨[⟨1, .ok ()⟩], .ok (), false, []⟩]).kcpQueuedBytes =
        engineBytes (after [.receive ⟨[⟨1, .ok ()⟩], .ok (), false, []⟩]) := by
  have hr : (wire (Joining.server .kcp)).Reach (fun _ input => clean input = true)
      (after [.receive ⟨[⟨1, .ok ()⟩], .ok (), false, []⟩]) :=
    Machine.reach_run _ (.start ⟨.production, rfl⟩) (by decide +kernel)
  exact ⟨by decide +kernel, (kcp_bytes_exact hr).1⟩

/-- **A refused packet leaves residue.** An acknowledgement followed by a segment the library refuses
retires the record but not its bytes, and they stay when the peer is removed. -/
theorem residue_of_refused_packet :
    let stray : RnetError := ⟨.protocolError, "conv inconsistent, expected 1, found 2"⟩
    let packet : Packet := ⟨[⟨1, .ok ()⟩, ⟨0, .error stray⟩], .ok (), false, []⟩
    (after [.receive packet]).kcpQueuedBytes = 1176 ∧ engineBytes (after [.receive packet]) = 0 ∧
      (after [.receive packet, .removePeer]).kcpQueuedBytes = 1176 ∧
      ((after [.receive packet, .removePeer]).slot home).engine = none := by
  decide +kernel

end Rnet.Transport.KcpBudget
