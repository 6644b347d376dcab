import Rnet.Lib.GuardedRun
import Rnet.Security.Disciplines
import Rnet.Security.Ordered
import Rnet.Transport.TcpSession

/-! # Security transitions on a TCP connection

Two session loops joined by two byte streams. A step is one branch of one loop; what it writes is
appended to the stream of the other side, and a delivery takes the next record off the stream. The
loops are shown to keep the phases of the ordered barrier, from which every record that arrives is
accepted. -/

namespace Rnet.Transport.TcpBarrier

open Rnet.Core Lib.BigEndian Lib.GuardedRun Lib.SealedChannel Protocol Protocol.Framing
open Protocol.Records (Record ProtectedKind ProtectedMessage Control recordBytes protectedBytes
  encodeControl decodeRecord)
open Security.Cipher Security.Controller Security.Disciplines Security.Ordered Config State
open TcpSession
open Session (Takes Admissible)

variable {N : Noise}

/-! ### One loop -/

section

variable (laws : N.CipherLaws)

def wireOf (p : Packet Bytes) : Bytes := framed (recordBytes p.record)

/-- The record of a packet is within the limits of the stream. -/
def Packed (c : RuntimeConfig) (p : Packet Bytes) : Prop :=
  p.record.payload.length ≤ maxPayload c + 64 ∧
    Records.headerLen + p.record.payload.length ≤ u32Max

abbrev sideOf (s : TcpState N) : Side (SecureTransport N) := ⟨s.controller, s.transport⟩

abbrev stream (c : RuntimeConfig) :
    Discipline (SecureTransport N) ProtectedMessage Bytes := counter laws (maxPayload c)

/-- Session, limits and routes stay. -/
structure Kept (s s' : TcpState N) : Prop where
  session : s'.session = s.session
  config : s'.shared.config = s.shared.config
  sessions : s'.shared.sessions = s.shared.sessions

/-- A branch leaves the loop's end as `K` says and puts the packets on the stream. -/
def Leaves (s s' : TcpState N) (K : Side (SecureTransport N) → List (Packet Bytes) → Prop) : Prop :=
  Kept s s' ∧ ∃ out, K (sideOf s') out ∧ s'.written = s.written ++ out.map wireOf ∧
    ∀ p ∈ out, Packed s.shared.config p

theorem kept_pushTcpEvent (turn : Turn) (s : Shared) (event : Event) :
    (pushTcpEvent turn s event).config = s.config ∧
      (pushTcpEvent turn s event).sessions = s.sessions := by
  unfold pushTcpEvent
  split_ifs <;> exact ⟨rfl, rfl⟩

theorem seals_of_writeProtected
    (h : writeProtected t epoch kind payload (maxPayload c) = (t', .ok wire)) :
    ∃ cipher, (stream laws c).Seals t ⟨kind, payload⟩ t' cipher ∧ wire =
      wireOf (.wrapped epoch ⟨kind, payload⟩ cipher) ∧ Packed c (.wrapped epoch ⟨kind,
      payload⟩ cipher) := by
  obtain ⟨hm, hu, hn, rfl, cipher, hwr, hwi⟩ := writeProtected_eq_ok.mp h
  obtain ⟨hl, hl', rfl⟩ := writeWire_eq_ok.mp hwi
  exact ⟨cipher, ⟨⟨hm, hu⟩, SecureTransport.encrypt_eq_ok.mpr ⟨hn, hwr, rfl⟩⟩, rfl, hl,
    hl'⟩

theorem writeControl_ok {turn : Turn} {s : TcpState N} (epoch : ℕ) (control : Control)
    (ho : turn.streamOk = true) (hn : s.transport.sendNonce < u64Max) :
    ∃ t cipher, (stream laws s.shared.config).Seals s.transport (controlMessage control) t cipher ∧
      Packed s.shared.config (.wrapped epoch (controlMessage control) cipher) ∧
      writeControl turn s epoch control = ({ s with
        transport := t
        written := s.written ++ [wireOf (.wrapped epoch (controlMessage control) cipher)] },
        .ok ()) := by
  have hl : (encodeControl control).length = 10 := Records.length_encodeControl control
  obtain ⟨cipher, hwr⟩ : ∃ cipher, N.write s.transport.outKey s.transport.sendNonce
      (protectedBytes (controlMessage control)) = some cipher := by
    rw [← Option.isSome_iff_exists, laws.write_isSome, Records.length_protectedBytes]
    simp only [controlMessage, hl, Records.protectedHeaderLen, tagLen, maxMessageLen]
    omega
  have hc := laws.length_write hwr
  rw [Records.length_protectedBytes] at hc
  simp only [controlMessage, hl, Records.protectedHeaderLen, tagLen] at hc
  have hwi : writeProtected s.transport epoch .control (encodeControl control)
      (maxPayload s.shared.config) = ({ s.transport with sendNonce := s.transport.sendNonce + 1 },
        .ok (wireOf (.wrapped epoch (controlMessage control) cipher))) := by
    refine writeProtected_eq_ok.mpr ⟨?_, ?_, hn, rfl, cipher, hwr,
      writeWire_eq_ok.mpr ⟨?_, ?_, rfl⟩⟩ <;>
      simp only [hl, hc, maxPayload, u32Max, headerLen, Records.headerLen] <;> omega
  obtain ⟨cipher', hs, hb, hp⟩ := seals_of_writeProtected laws hwi
  refine ⟨_, cipher', hs, hp, ?_⟩
  unfold writeControl writeStream
  rw [hwi, hb]
  simp only [ho, if_true]
  rfl

theorem openRecord_wrapped {s : TcpState N} {epoch : ℕ} {message : ProtectedMessage}
    {cipher : Bytes} {t : SecureTransport N}
    (h : (stream laws s.shared.config).opens s.transport cipher = some (t, message)) :
    openRecord s ⟨.protectedRecord, epoch, cipher⟩ = (t, .ok message) := by
  obtain ⟨plain, hd, hde⟩ := messageOf_eq_some h
  simp only [openRecord, decryptProtected, ne_eq, not_true_eq_false, if_false, hd, hde]

theorem finishControl_ok (turn : Turn) (s : TcpState N) (kind : Records.ControlKind) :
    ∃ s', finishControl turn s kind = (s', .ok ()) ∧ Kept s s' ∧ sideOf s' = sideOf s ∧
      s'.written = s.written := by
  unfold finishControl
  split
  · rename_i operation _ _
    obtain ⟨hc, hs⟩ := kept_pushTcpEvent turn s.shared
      (Session.securityChangedEvent s.endpoint s.session operation s.controller.mode
        s.controller.epoch)
    exact ⟨_, rfl, ⟨rfl, hc, hs⟩, rfl, rfl⟩
  · exact ⟨s, rfl, ⟨rfl, rfl, rfl⟩, rfl, rfl⟩

theorem handleControl_silent {turn : Turn} {s : TcpState N} {epoch : ℕ} {control : Control}
    {c : SecurityController} {before : Effect} (hwe : control.WellFormed)
    (hh : s.controller.handle control = (c, .ok ⟨before, none, .none⟩)) :
    ∃ s', handleControl turn s epoch (encodeControl control) = (s', .ok ()) ∧ Kept s s' ∧
      sideOf s' = ⟨c, applyEffect s.transport before⟩ ∧ s'.written = s.written := by
  unfold handleControl
  simp only [Records.decodeControl_encodeControl hwe, hh, respond]
  obtain ⟨s', hs', hk, hs, hwr⟩ := finishControl_ok turn
    { s with controller := c, transport := applyEffect s.transport before } control.kind
  exact ⟨s', hs', ⟨hk.session, hk.config, hk.sessions⟩, hs, hwr⟩

theorem handleControl_answered {turn : Turn} {s : TcpState N} {epoch : ℕ} {control answer : Control}
    {c : SecurityController} {before after : Effect} (ho : turn.streamOk = true)
    (hn : s.transport.sendNonce < u64Max) (hwe : control.WellFormed)
    (hh : s.controller.handle control = (c, .ok ⟨before, some answer, after⟩)) :
    ∃ s' t cipher, handleControl turn s epoch (encodeControl control) = (s', .ok ()) ∧ Kept s s' ∧
      (stream laws s.shared.config).Seals (applyEffect s.transport before) (controlMessage answer) t
        cipher ∧
      Packed s.shared.config (.wrapped epoch (controlMessage answer) cipher) ∧
      sideOf s' = ⟨c, applyEffect t after⟩ ∧
      s'.written = s.written ++ [wireOf (.wrapped epoch (controlMessage answer) cipher)] := by
  let s₁ : TcpState N := { s with controller := c, transport := applyEffect s.transport before }
  have hn₁ : s₁.transport.sendNonce < u64Max := by
    show (applyEffect s.transport before).sendNonce < u64Max
    unfold applyEffect
    split_ifs <;> exact hn
  obtain ⟨t, cipher, hs, hp, hwri⟩ := writeControl_ok laws epoch answer ho hn₁
  obtain ⟨s', hs', hk, hsi, hwr⟩ := finishControl_ok turn { s₁ with
    transport := applyEffect t after
    written := s.written ++ [wireOf (.wrapped epoch (controlMessage answer) cipher)] } control.kind
  refine ⟨s', t, cipher, ?_, ⟨hk.session, hk.config, hk.sessions⟩, hs, hp, hsi,
    hwr⟩
  unfold handleControl
  simp only [Records.decodeControl_encodeControl hwe, hh, respond]
  rw [show writeControl turn { s with controller := c, transport := applyEffect s.transport before }
    epoch answer = _ from hwri]
  exact hs'

end

variable {turn : Turn} {s : TcpState N} {p : Packet Bytes}
  {K : Side (SecureTransport N) → List (Packet Bytes) → Prop}

/-- **The receive path accepts what the ordered barrier delivers.** -/
theorem leaves_processInbound (laws : N.CipherLaws)
    (hd : Delivers (stream laws s.shared.config) (Takes s.shared.config) (sideOf s) p K)
    (ha : s.shared.sessionActive s.session = true) (hok : turn.streamOk = true)
    (hn : s.transport.sendNonce < u64Max) :
    ∃ s', processInbound turn s p.record = (s', .ok ()) ∧ Leaves s s' K := by
  cases hd with
  | @plain data hp hm hal hk =>
    subst hp
    obtain ⟨-, frame, hf⟩ | ⟨hki, -⟩ := hal
    · obtain ⟨hc, hs⟩ := kept_pushTcpEvent turn s.shared
        (Session.messageEvent s.endpoint s.session frame false)
      have ho : openRecord s ⟨.plainData, s.controller.epoch, data⟩ =
          (s.transport, .ok ⟨.data, data⟩) := by
        unfold openRecord
        rw [show s.controller.mode = .plaintext from hm]
      refine ⟨_, (processInbound_of_open ha rfl ho).trans (dispatch_of_frame nofun hf),
        ⟨rfl, hc, hs⟩, [], hk, (List.append_nil _).symm, nofun⟩
    · cases hki
  | @business message cipher t hp hop hki hm hal hk =>
    subst hp
    have ho := @openRecord_wrapped _ laws s s.controller.epoch _ _ _ hop
    obtain ⟨kind, payload⟩ := message
    obtain ⟨hda, frame, hf⟩ | ⟨hg, hl⟩ := hal
    · dsimp only at hda
      subst hda
      obtain ⟨hc, hs⟩ := kept_pushTcpEvent turn s.shared
        (Session.messageEvent s.endpoint s.session frame true)
      refine ⟨_, (processInbound_of_open ha rfl ho).trans
        (dispatch_of_frame (fun _ => hm rfl) hf),
        ⟨rfl, hc, hs⟩, [], hk, (List.append_nil _).symm, nofun⟩
    · dsimp only at hg
      subst hg
      obtain ⟨hc, hs⟩ := kept_pushTcpEvent turn s.shared
        (Session.gameControlEvent s.endpoint s.session payload)
      refine ⟨_, (processInbound_of_open ha rfl ho).trans (dispatch_of_gameControl rfl hl),
        ⟨rfl, hc, hs⟩, [], hk, (List.append_nil _).symm, nofun⟩
  | @silent control cipher t c before hp hop hwe hh hk =>
    subst hp
    have ho := @openRecord_wrapped _ laws s s.controller.epoch _ _ _ hop
    obtain ⟨s', hs', hke, hsi, hwr⟩ := @handleControl_silent _ turn
      { s with transport := t } s.controller.epoch _ _ _ hwe hh
    refine ⟨s', (processInbound_of_open ha rfl ho).trans hs',
      ⟨hke.session, hke.config, hke.sessions⟩, [], ?_, ?_, nofun⟩
    · rw [hsi]; exact hk
    · rw [hwr]; exact (List.append_nil _).symm
  | @answered control answer cipher t c before after hp hop hwe hh hk =>
    subst hp
    have ho := @openRecord_wrapped _ laws s s.controller.epoch _ _ _ hop
    have hn' : t.sendNonce < u64Max := by
      obtain ⟨_, hde, -⟩ := messageOf_eq_some hop
      obtain ⟨-, -, rfl⟩ := SecureTransport.decrypt_eq_ok.mp hde
      exact hn
    obtain ⟨s', t', cipher', hs', hke, hse, hpa, hsi, hwr⟩ :=
      @handleControl_answered _ laws turn { s with transport := t } s.controller.epoch _ _ _ _ _ hok
        hn' hwe hh
    refine ⟨s', (processInbound_of_open ha rfl ho).trans hs',
      ⟨hke.session, hke.config, hke.sessions⟩,
      [.wrapped s.controller.epoch (controlMessage answer) cipher'], ?_, hwr, ?_⟩
    · rw [hsi]; exact hk t' cipher' hse
    intro p hp
    rw [List.mem_singleton] at hp
    exact hp ▸ hpa

theorem decodeRecord_packed (he : p.record.epoch ≤ u64Max) (hp : Packed c p) :
    decodeRecord (recordBytes p.record) (maxPayload c + 64) = .ok p.record :=
  Records.decodeRecord_recordBytes he hp.1 (by have := hp.2; omega)

theorem leaves_receive (laws : N.CipherLaws)
    (hd : Delivers (stream laws s.shared.config) (Takes s.shared.config) (sideOf s) p K)
    (ha : s.shared.sessionActive s.session = true) (hl : s.controller.epoch ≤ u64Max)
    (hp : Packed s.shared.config p) (hok : turn.streamOk = true)
    (hn : s.transport.sendNonce < u64Max) :
    ∃ s', receive turn s (recordBytes p.record) = (s', .ok ()) ∧ Leaves s s' K := by
  have he : p.record.epoch = s.controller.epoch := (suits_of_delivers hd).epoch
  obtain ⟨s', hs', hk, ho⟩ := leaves_processInbound laws hd ha hok hn
  refine ⟨{ s' with
    deadline := if s'.controller.isTransitioning then s'.deadline else none }, ?_,
    ⟨hk.session, hk.config, hk.sessions⟩, ho⟩
  unfold receive
  rw [decodeRecord_packed (he ▸ hl) hp]
  dsimp only
  rw [hs']

/-! ### Sending branches -/

variable {s' : TcpState N}

theorem writeStream_eq_ok
    (h : writeStream turn s r = (s', .ok ())) :
    ∃ t wire, r = (t, .ok wire) ∧
      s' = { s with transport := t, written := s.written ++ [wire] } := by
  unfold writeStream at h
  split at h
  · cases h
  rename_i t wire
  split at h
  · cases h
    exact ⟨t, wire, rfl, rfl⟩
  · cases h

theorem emits_of_writeOutbound (laws : N.CipherLaws) (ha : Admissible config o)
    (h : writeOutbound t c o.kind o.bytes (maxPayload config) = (t', .ok wire)) :
    ∃ p, Business (Takes config) c.mode c.epoch p ∧ Emits (stream laws config) t p t' ∧ wire =
      wireOf p ∧ Packed config p := by
  obtain ⟨bytes, kind, _, _, _⟩ := o
  unfold writeOutbound at h
  cases kind with
  | gameControl =>
    obtain ⟨cipher, hs, hwi, hp⟩ := seals_of_writeProtected laws h
    exact ⟨.wrapped c.epoch ⟨.gameControl, bytes⟩ cipher, ⟨rfl, nofun, nofun, ha⟩, hs, hwi,
      hp⟩
  | data =>
    cases hm : c.mode with
    | encrypted =>
      rw [hm] at h
      obtain ⟨cipher, hs, hwi, hp⟩ := seals_of_writeProtected laws h
      exact ⟨.wrapped c.epoch ⟨.data, bytes⟩ cipher, ⟨rfl, nofun, fun _ => rfl, ha⟩, hs, hwi,
        hp⟩
    | plaintext =>
      rw [hm] at h
      obtain ⟨rfl, hwi⟩ := Prod.mk.inj h
      obtain ⟨hl, hu, hwi⟩ := writeWire_eq_ok.mp hwi
      exact ⟨.plain c.epoch bytes, ⟨rfl, rfl, ha⟩, rfl, hwi,
        hl.trans (Nat.le_add_right ..), hu⟩

theorem leaves_takeOutbound (laws : N.CipherLaws)
    (ha : ∀ shared o', s.shared.resolveLatest o = (shared, some o') → Admissible s.shared.config o')
    (h : takeOutbound turn s o = (s', .ok ())) (hn : K (sideOf s) [])
    (hse : ∀ p t, Business (Takes s.shared.config) s.controller.mode s.controller.epoch p →
      Emits (stream laws s.shared.config) s.transport p t → K ⟨s.controller, t⟩ [p]) :
    Leaves s s' K := by
  obtain ⟨hc, hs⟩ := s.shared.kept_resolveLatest o
  unfold takeOutbound at h
  split at h <;> rename_i hr <;> rw [hr] at hc hs
  · cases h
    exact ⟨⟨rfl, hc, hs⟩, [], hn, (List.append_nil _).symm, nofun⟩
  rename_i shared o'
  have ha := ha shared o' hr
  dsimp only at h hc hs
  split at h
  · cases h
  split at h
  · cases h
  rename_i hwr
  obtain ⟨t, wire, hwi, rfl⟩ := writeStream_eq_ok hwr
  rw [hc] at hwi
  obtain ⟨p, hp, he, rfl, hpa⟩ := emits_of_writeOutbound laws ha hwi
  cases h
  refine ⟨⟨rfl, hc, hs⟩, [p], hse p t hp he, rfl, fun x hx => ?_⟩
  rw [List.mem_singleton] at hx
  exact hx ▸ hpa

theorem leaves_propose (laws : N.CipherLaws) {turn : Turn} {s : TcpState N}
    {r : SecurityController × Result Control}
    {K : Side (SecureTransport N) → List (Packet Bytes) → Prop} (ho : turn.streamOk = true)
    (hn : s.transport.sendNonce < u64Max) (hr : Starts s.controller r)
    (hno : K (sideOf s) [])
    (hpr : ∀ c k t cipher, Proposal s.controller c k →
      (stream laws s.shared.config).Seals s.transport (controlMessage k) t cipher →
      K ⟨c, t⟩ [.wrapped s.controller.epoch (controlMessage k) cipher]) :
    Leaves s (propose turn s r).1 K := by
  obtain ⟨e, rfl⟩ | ⟨c, k, rfl, hk⟩ := hr
  · exact ⟨⟨rfl, rfl, rfl⟩, [], hno, (List.append_nil _).symm, nofun⟩
  have he := hk.epoch_eq
  obtain ⟨t, cipher, hs, hp, hwr⟩ :=
    @writeControl_ok _ laws turn { s with controller := c } c.epoch k ho hn
  unfold propose
  dsimp only
  rw [hwr]
  rw [he] at hp ⊢
  refine ⟨⟨rfl, rfl, rfl⟩, [.wrapped s.controller.epoch (controlMessage k) cipher],
    hpr c k t cipher hk hs, rfl, fun x hx => ?_⟩
  rw [List.mem_singleton] at hx
  exact hx ▸ hp

theorem Leaves.of_rekey (rekey : Slots.AutoRekey) (h : Leaves { s with rekey := rekey } s' K) :
    Leaves s s' K :=
  ⟨⟨h.1.session, h.1.config, h.1.sessions⟩, h.2⟩

/-! ### Two loops -/

/-- The session loops of a server and a client and the bytes under way between them. -/
structure Connection (N : Noise) where
  server : TcpState N
  client : TcpState N
  toClient : Bytes
  toServer : Bytes

namespace Connection

def state (w : Connection N) : Role → TcpState N
  | .server => w.server
  | .client => w.client

def incoming (w : Connection N) : Role → Bytes
  | .server => w.toServer
  | .client => w.toClient

/-- A loop took a branch: what it wrote is under way, and `rest` is left to read. -/
def settle (w : Connection N) (role : Role) (rest : Bytes) (s : TcpState N) : Connection N :=
  match role with
  | .server => ⟨{ s with written := [] }, w.client, w.toClient ++ s.written.flatten, rest⟩
  | .client => ⟨w.server, { s with written := [] }, rest, w.toServer ++ s.written.flatten⟩

end Connection

/-- Largest record the reader cuts off the stream. -/
def readerLimit (c : RuntimeConfig) : ℕ := maxPayload c + 84

/-- The branches of the loops, and what the rest of the runtime does to their shared state. -/
inductive Input
  | outbound (role : Role) (turn : Turn) (o : Outbound)
  | command (role : Role) (turn : Turn) (cmd : SecurityCommand)
  | autoRekey (role : Role) (turn : Turn)
  | deliver (role : Role) (turn : Turn)
  | runtime (role : Role) (shared : Shared)

def step (w : Connection N) : Input → Connection N
  | .outbound role turn o =>
    if (w.state role).controller.isTransitioning then w
    else w.settle role (w.incoming role) (takeOutbound turn (w.state role) o).1
  | .command role turn cmd =>
    if (w.state role).controller.isTransitioning || !(w.state role).commands then w
    else w.settle role (w.incoming role) (takeCommand turn (w.state role) cmd).1
  | .autoRekey role turn =>
    w.settle role (w.incoming role) (TcpSession.autoRekey turn (w.state role)).1
  | .deliver role turn =>
    match takeRecord (readerLimit (w.state role).shared.config) (w.incoming role) with
    | (rest, .ok (some encoded)) => w.settle role rest (receive turn (w.state role) encoded).1
    | _ => w
  | .runtime role shared => w.settle role (w.incoming role) { w.state role with shared := shared }

/-- Sends succeed: the stream takes what is written, nonces last, application messages were admitted
and can be written, and the session stays open under the same limits. -/
def Succeeds (w : Connection N) : Input → Prop
  | .outbound role turn o => (takeOutbound turn (w.state role) o).2 = .ok () ∧
    ∀ shared o', (w.state role).shared.resolveLatest o = (shared, some o') →
      Admissible (w.state role).shared.config o'
  | .command role turn _ => turn.streamOk = true ∧ (w.state role).transport.sendNonce < u64Max
  | .autoRekey role turn => turn.streamOk = true ∧ (w.state role).transport.sendNonce < u64Max
  | .deliver role turn => turn.streamOk = true ∧ (w.state role).transport.sendNonce < u64Max
  | .runtime role shared => shared.config = (w.state role).shared.config ∧
    shared.sessionActive (w.state role).session = true

/-- Two loops that finished a handshake: the same limits, mode and epoch, paired keys and counters
and nothing under way. -/
structure Start (w : Connection N) : Prop where
  config : w.client.shared.config = w.server.shared.config
  controllers : ∃ mode epoch, epoch ≤ u64Max ∧ w.server.controller = .new .server mode epoch ∧
    w.client.controller = .new .client mode epoch
  forth : w.client.transport.inKey = w.server.transport.outKey ∧
    w.client.transport.receiveNonce = w.server.transport.sendNonce
  back : w.server.transport.inKey = w.client.transport.outKey ∧
    w.server.transport.receiveNonce = w.client.transport.sendNonce
  active : ∀ role, (w.state role).shared.sessionActive (w.state role).session = true
  quiet : ∀ role, w.incoming role = [] ∧ (w.state role).written = []

/-- Runs of a connection. -/
def machine (N : Noise) : Machine (Connection N) Input where
  init := Start
  step := step

/-- A loop is one end of an exchange, with its packets on the stream. -/
structure Represents (c : RuntimeConfig) (s : TcpState N) (bytes : Bytes)
    (side : Side (SecureTransport N)) (packets : List (Packet Bytes)) : Prop where
  side : side = sideOf s
  bytes : bytes = (packets.map wireOf).flatten
  packed : ∀ p ∈ packets, Packed c p
  config : s.shared.config = c
  active : s.shared.sessionActive s.session = true
  written : s.written = []

structure Sound (laws : N.CipherLaws) (c : RuntimeConfig) (w : Connection N)
    (x : Exchange (SecureTransport N) Bytes) : Prop where
  phase : Phase (stream laws c) (Takes c) x
  ends : ∀ role, Represents c (w.state role) (w.incoming role) (x.side role) (x.incoming role)

theorem Represents.append {bytes : Bytes} {side : Side (SecureTransport N)} {written : List Bytes}
    (h : Represents c s bytes side packets) (hwr : written = out.map wireOf)
    (ho : ∀ p ∈ out, Packed c p) :
    Represents c s (bytes ++ written.flatten) side (packets ++ out) where
  side := h.side
  bytes := by rw [h.bytes, hwr, List.map_append, List.flatten_append]
  packed p hp := (List.mem_append.mp hp).elim (h.packed p) (ho p)
  config := h.config
  active := h.active
  written := h.written

variable {laws : N.CipherLaws} {w : Connection N} {x : Exchange (SecureTransport N) Bytes}

theorem sound_settle (h : Sound laws c w x) (role : Role) (hr : ∀ p ∈ rest, p ∈ x.incoming role)
    (hl : Leaves (w.state role) s fun side out =>
      Phase (stream laws c) (Takes c) (x.put role side rest out)) :
    ∃ x', Sound laws c (w.settle role (rest.map wireOf).flatten s) x' := by
  obtain ⟨hk, out, hph, hwr, hpa⟩ := hl
  have he := h.ends role
  rw [he.written, List.nil_append] at hwr
  rw [he.config] at hpa
  have ha : s.shared.sessionActive s.session = true := by
    rw [hk.session, Shared.sessionActive, hk.sessions]
    exact he.active
  have hs : Represents c { s with written := [] } (rest.map wireOf).flatten (sideOf s) rest :=
    ⟨rfl, rfl, fun p hp => he.packed p (hr p hp), hk.config.trans he.config, ha, rfl⟩
  refine ⟨x.put role (sideOf s) rest out, hph, ?_⟩
  cases role <;> rintro (_ | _)
  case server.server => exact hs
  case server.client => exact (h.ends .client).append hwr hpa
  case client.server => exact (h.ends .server).append hwr hpa
  case client.client => exact hs

theorem sound_runtime (h : Sound laws c w x) (role : Role)
    (hc : shared.config = (w.state role).shared.config)
    (ha : shared.sessionActive (w.state role).session = true) :
    Sound laws c (w.settle role (w.incoming role) { w.state role with shared := shared }) x := by
  have he := h.ends role
  have hs : Represents c { w.state role with shared := shared, written := [] }
      (w.incoming role) (x.side role) (x.incoming role) :=
    ⟨he.side, he.bytes, he.packed, hc.trans he.config, ha, rfl⟩
  have ho : ∀ other, Represents c (w.state other)
      (w.incoming other ++ (w.state role).written.flatten) (x.side other) (x.incoming other) := by
    intro other
    rw [he.written, List.flatten_nil, List.append_nil]
    exact h.ends other
  refine ⟨h.phase, ?_⟩
  cases role <;> rintro (_ | _)
  case server.server => exact hs
  case server.client => exact ho .client
  case client.server => exact ho .server
  case client.client => exact hs

theorem takeRecord_wireOf (h : Packed c p) :
    takeRecord (readerLimit c) (wireOf p ++ rest) = (rest, .ok (some (recordBytes p.record))) := by
  obtain ⟨hl, hu⟩ := h
  refine takeRecord_framed ?_ ?_ ?_
  · exact List.ne_nil_of_length_pos (by rw [Records.length_recordBytes]; simp [Records.headerLen])
  · rw [Records.length_recordBytes]; unfold readerLimit Records.headerLen; omega
  · rw [Records.length_recordBytes]; exact hu

theorem delivers_next (h : Sound laws c w x) (role : Role) :
    w.incoming role = [] ∨ ∃ p rest, x.incoming role = p :: rest ∧ Packed c p ∧
      takeRecord (readerLimit c) (w.incoming role) = ((rest.map wireOf).flatten,
      .ok (some (recordBytes p.record))) ∧
      Delivers (stream laws c) (Takes c) (sideOf (w.state role)) p fun side out => Phase (stream
      laws c) (Takes c) (x.put role side rest out) := by
  have he := h.ends role
  cases hq : x.incoming role with
  | nil => exact .inl (by rw [he.bytes, hq]; rfl)
  | cons p rest =>
    have hp : Packed c p := he.packed p (by rw [hq]; exact List.mem_cons_self)
    refine .inr ⟨p, rest, rfl, hp, ?_, ?_⟩
    · rw [he.bytes, hq, List.map_cons, List.flatten_cons]
      exact takeRecord_wireOf hp
    · rw [← he.side]
      exact h.phase.receives hq

section Branches

variable {laws : N.CipherLaws} {c : RuntimeConfig} {w : Connection N}
  {x : Exchange (SecureTransport N) Bytes}

theorem Sound.settle (h : Sound laws c w x) (role : Role)
    (hl : Leaves (w.state role) s fun side out => Phase (stream laws c) (Takes c) (x.put role side
      (x.incoming role) out)) : ∃ x', Sound laws c (w.settle role (w.incoming role) s) x' := by
  rw [(h.ends role).bytes]
  exact sound_settle h role (fun _ hp => hp) hl

theorem Sound.idle (h : Sound laws c w x) (role : Role) : Phase (stream laws c) (Takes c)
    (x.put role (sideOf (w.state role)) (x.incoming role) []) := by
  rw [← (h.ends role).side]
  rw [Exchange.put_self]
  exact h.phase

variable {role : Role} {turn : Turn}

variable (h : Sound laws c w x)
include h

theorem sound_outbound (hg : Succeeds w (.outbound role turn o)) :
    ∃ x', Sound laws c (step w (.outbound role turn o)) x' := by
  obtain ⟨ho, ha⟩ := hg
  have he := h.ends role
  show ∃ x', Sound laws c (if (w.state role).controller.isTransitioning then w
    else w.settle role (w.incoming role) (takeOutbound turn (w.state role) o).1) x'
  split_ifs with hb
  · exact ⟨x, h⟩
  refine h.settle role (leaves_takeOutbound laws ha (Prod.ext rfl ho) (h.idle role) ?_)
  intro p t hp ht
  rw [he.config] at hp ht
  have hpe : (w.state role).controller.pending = none := by
    simpa [SecurityController.isTransitioning] using hb
  have hph := @Phase.sends _ _ _ _ x role p t h.phase
  rw [he.side] at hph
  exact hph hpe hp ht

theorem sound_propose (ho : turn.streamOk = true) (hn : (w.state role).transport.sendNonce < u64Max)
    (rekey : Slots.AutoRekey) (hr : Starts (w.state role).controller r) :
    ∃ x', Sound laws c (w.settle role (w.incoming role)
      (propose turn { w.state role with rekey := rekey } r).1) x' := by
  have he := h.ends role
  refine h.settle role (Leaves.of_rekey rekey ?_)
  refine @leaves_propose _ laws turn { w.state role with rekey := rekey } r _ ho hn hr
    (h.idle role) ?_
  intro c' k t cipher hk ht
  have hp := @Phase.proposes _ _ _ _ x role c' k cipher t h.phase
  rw [he.side] at hp
  exact hp hk (he.config ▸ ht)

theorem sound_command (hg : Succeeds w (.command role turn cmd)) :
    ∃ x', Sound laws c (step w (.command role turn cmd)) x' := by
  obtain ⟨ho, hn⟩ := hg
  show ∃ x', Sound laws c
    (if (w.state role).controller.isTransitioning || !(w.state role).commands then w
    else w.settle role (w.incoming role) (takeCommand turn (w.state role) cmd).1) x'
  split_ifs
  · exact ⟨x, h⟩
  cases cmd with
  | setMode mode => exact sound_propose h ho hn (w.state role).rekey (starts_beginSwitch ..)
  | rekey => exact sound_propose h ho hn _ (starts_beginRekey _)

theorem sound_autoRekey (hg : Succeeds w (.autoRekey role turn)) :
    ∃ x', Sound laws c (step w (.autoRekey role turn)) x' := by
  obtain ⟨ho, hn⟩ := hg
  have hst := starts_beginRekey (w.state role).controller
  have hs : ∃ x', Sound laws c (w.settle role (w.incoming role) (w.state role)) x' :=
    h.settle role ⟨⟨rfl, rfl, rfl⟩, [], h.idle role, (List.append_nil _).symm, nofun⟩
  show ∃ x', Sound laws c (w.settle role (w.incoming role)
    (TcpSession.autoRekey turn (w.state role)).1) x'
  unfold TcpSession.autoRekey
  split
  · obtain ⟨e, he⟩ | ⟨c', k, hk, hp⟩ := hst
    · rw [he]; exact hs
    rw [hk]
    exact sound_propose h ho hn ((w.state role).rekey.markStarted turn.now)
      (.inr ⟨c', k, rfl, hp⟩)
  · exact hs

theorem sound_deliver (hg : Succeeds w (.deliver role turn)) :
    ∃ x', Sound laws c (step w (.deliver role turn)) x' := by
  obtain ⟨ho, hn⟩ := hg
  have he := h.ends role
  unfold step
  dsimp only
  rw [he.config]
  rcases delivers_next h role with hni | ⟨p, rest, hq, hp, ht, hd⟩
  · rw [hni]; exact ⟨x, h⟩
  rw [ht]
  rw [← he.config] at hp hd
  have hle := h.phase.epoch_le role
  rw [he.side] at hle
  obtain ⟨s', hs', hl⟩ := leaves_receive laws hd he.active hle hp ho hn
  dsimp only
  rw [hs']
  rw [he.config] at hl
  exact sound_settle h role (fun y hy => by rw [hq]; exact List.mem_cons_of_mem _ hy) hl

end Branches

/-- **A step whose sends succeed keeps the connection in a phase.** -/
theorem sound_step (h : ∃ x, Sound laws c w x) (hg : Succeeds w input) :
    ∃ x, Sound laws c (step w input) x := by
  obtain ⟨x, h⟩ := h
  cases input with
  | outbound role turn o => exact sound_outbound h hg
  | command role turn cmd => exact sound_command h hg
  | autoRekey role turn => exact sound_autoRekey h hg
  | deliver role turn => exact sound_deliver h hg
  | runtime role shared => exact ⟨x, sound_runtime h role hg.1 hg.2⟩

theorem sound_start (h : Start w) : ∃ x, Sound laws w.server.shared.config w x := by
  obtain ⟨mode, epoch, hl, hs, hc⟩ := h.controllers
  refine ⟨⟨sideOf w.server, sideOf w.client, [], []⟩, ?_, ?_⟩
  · rw [sideOf, sideOf, hs, hc]
    exact .calm hl ⟨⟨h.forth.1, h.forth.2⟩, ⟨h.back.1, h.back.2⟩⟩ nofun nofun
  rintro (_ | _)
  · exact ⟨rfl, (h.quiet .server).1, nofun, rfl, h.active .server, (h.quiet .server).2⟩
  · exact ⟨rfl, (h.quiet .client).1, nofun, h.config, h.active .client, (h.quiet .client).2⟩

theorem sound_of_reach (laws : N.CipherLaws) (h : (machine N).Reach Succeeds w) :
    ∃ c x, Sound laws c w x := by
  refine Machine.Reach.invariant (I := fun w => ∃ c x, Sound laws c w x) ?_ ?_ h
  · intro w hst
    exact ⟨_, sound_start hst⟩
  · rintro w input ⟨c, hs⟩ hg
    exact ⟨c, sound_step hs hg⟩

/-! ### Every record is accepted -/

/-- The stream of a loop is empty, or starts with a record that the loop accepts: it is of the
controller's epoch, comes in the form the mode asks for, was sealed under the key it is opened with,
carries a control only if the controller handles it, and is processed if the answer can be sent. -/
def Accepts (s : TcpState N) (incoming : Bytes) : Prop :=
  incoming = [] ∨ ∃ rest record t message,
    takeRecord (readerLimit s.shared.config) incoming = (rest, .ok (some (recordBytes record))) ∧
    decodeRecord (recordBytes record) (maxPayload s.shared.config + 64) = .ok record ∧
    openRecord s record = (t, .ok message) ∧ Suits s.controller record message ∧
    (record.kind = .protectedRecord → ∀ key nonce plain, nonce ≤ u64Max →
      N.write key nonce plain = some record.payload → key = s.transport.inKey) ∧
    ∀ turn : Turn, turn.streamOk = true → s.transport.sendNonce < u64Max →
      (receive turn s (recordBytes record)).2 = .ok ()

theorem key_of_opens (ideal : N.Ideal) (h : (stream laws c).opens r cipher = some (r', m))
    (hn : nonce ≤ u64Max) (hwr : N.write key nonce plain = some cipher) : key = r.inKey := by
  obtain ⟨_, hd, -⟩ := messageOf_eq_some h
  obtain ⟨hl, hr, -⟩ := SecureTransport.decrypt_eq_ok.mp hd
  exact (ideal.read_sealed hn hl.le hwr hr).1.symm

theorem opened_of_delivers (ideal : N.Ideal)
    (hd : Delivers (stream laws s.shared.config) (Takes s.shared.config) (sideOf s) p K) :
    ∃ t, openRecord s p.record = (t, .ok p.message) ∧
      (p.record.kind = .protectedRecord → ∀ key nonce plain, nonce ≤ u64Max →
        N.write key nonce plain = some p.record.payload → key = s.transport.inKey) := by
  cases hd with
  | plain hp hm =>
    subst hp
    refine ⟨s.transport, ?_, nofun⟩
    show openRecord s ⟨.plainData, s.controller.epoch, _⟩ = _
    unfold openRecord
    rw [show s.controller.mode = .plaintext from hm]
    rfl
  | business hp ho | silent hp ho | answered hp ho =>
    subst hp
    exact ⟨_, openRecord_wrapped laws ho, fun _ _ _ _ => key_of_opens ideal ho⟩

theorem accepts_of_sound (ideal : N.Ideal) (h : Sound laws c w x) (role : Role) :
    Accepts (w.state role) (w.incoming role) := by
  have he := h.ends role
  rcases delivers_next h role with hni | ⟨p, rest, hq, hp, ht, hd⟩
  · exact .inl hni
  rw [← he.config] at hp hd ht
  have hl := h.phase.epoch_le role
  rw [he.side] at hl
  have hs := suits_of_delivers hd
  obtain ⟨t, ho, hk⟩ := opened_of_delivers ideal hd
  refine .inr ⟨_, p.record, t, p.message, ht, decodeRecord_packed (hs.epoch ▸ hl) hp,
    ho, hs, hk, fun turn hok hn => ?_⟩
  obtain ⟨s', hs', -⟩ := leaves_receive laws hd he.active hl hp hok hn
  rw [hs']

end Rnet.Transport.TcpBarrier
