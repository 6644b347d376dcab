import Rnet.Lib.GuardedRun
import Rnet.Transport.KcpEnd
import Rnet.Transport.KcpPreflight

/-! # Security transitions on a KCP connection

What the datagram workers of a server and a client hold for each other, joined by the records their
KCP engines were given. KCP delivers these records in order, so each side has read a prefix of what
the other queued, and the ordered barrier applies: every routine of the worker keeps its phases, from
which every record that arrives is accepted. -/

namespace Rnet.Transport.KcpBarrier

open Rnet.Core Lib.BigEndian Lib.GuardedRun Protocol.Records Security.Cipher Security.Controller
open Security.Disciplines Security.Ordered Config State Slots Codec Wire Session Process Maintenance
open KcpPreflight KcpEnd

variable {N : Noise}

/-! ### Two workers -/

/-- One side of a connection: how its worker is set up, the session, what the worker holds for the
other side, and how many records of the other side it has read. -/
structure Party (N : Noise) where
  setup : Setup N
  remote : Option SocketAddr
  initialSession : Option Handle
  session : Handle
  loc : Local N
  read : ℕ

/-- A server and a client. -/
structure Connection (N : Noise) where
  server : Party N
  client : Party N

namespace Connection

def party (w : Connection N) : Role → Party N
  | .server => w.server
  | .client => w.client

def queue (w : Connection N) : Role → List Bytes
  | .server => queuedOf w.client.loc
  | .client => queuedOf w.server.loc

def incoming (w : Connection N) (role : Role) : List Bytes :=
  (w.queue role).drop (w.party role).read

/-- A worker ran one of its routines and has read `read` records. -/
def settle (w : Connection N) (role : Role) (read : ℕ) (l : Local N) : Connection N :=
  match role with
  | .server => { w with server := { w.server with loc := l, read := read } }
  | .client => { w with client := { w.client with loc := l, read := read } }

end Connection

/-- The routines of the workers, and what the rest of the runtime does to their shared state. -/
inductive Input (N : Noise)
  | outbound (role : Role) (call : Call N) (o : Outbound)
  | flush (role : Role) (call : Call N)
  | drive (role : Role) (call : Call N)
  | packet (role : Role) (call : Call N) (input : KcpInput)
  | deliver (role : Role) (call : Call N)
  | runtime (role : Role) (shared : Shared)

/-- A step runs one routine of one worker. A packet moves the engine, and the records it completes
are handled one by one. -/
def step (w : Connection N) : Input N → Connection N
  | .outbound role call o =>
    w.settle role (w.party role).read
      (takeOutbound (w.party role).setup call (w.party role).loc o)
  | .flush role call =>
    w.settle role (w.party role).read (flushDeferred (w.party role).setup call (w.party role).loc)
  | .drive role call =>
    w.settle role (w.party role).read (driveServer (w.party role).setup call (w.party role).loc)
  | .packet role call input =>
    w.settle role (w.party role).read (receiveKcp call (w.party role).loc input).1
  | .deliver role call =>
    match w.incoming role with
    | [] => w
    | bytes :: _ =>
      w.settle role ((w.party role).read + 1) (receiveRecord (w.party role).setup
        (w.party role).remote (w.party role).initialSession call (w.party role).loc bytes).1
  | .runtime role shared =>
    w.settle role (w.party role).read { (w.party role).loc with shared := shared }

def NoncesLast (p : Party N) : Prop :=
  ∀ side, Hosts p.loc p.session side → side.transport.sendNonce < u64Max

/-- Sends succeed: a routine does not end the session, application messages were admitted, a delivery
finds room for its answer and for its event, and the session stays open under the same limits. -/
def Succeeds (w : Connection N) : Input N → Prop
  | .outbound role call o =>
    (takeOutbound (w.party role).setup call (w.party role).loc o).slot.peer.isSome ∧
      ∀ shared o', (w.party role).loc.shared.resolveLatest o = (shared, some o') →
        Admissible (w.party role).loc.shared.config o'
  | .flush role call =>
    (flushDeferred (w.party role).setup call (w.party role).loc).slot.peer.isSome ∧
      ∀ o shared o', (w.party role).loc.slot.deferred.head? = some o →
        (w.party role).loc.shared.resolveLatest o = (shared, some o') →
        Admissible (w.party role).loc.shared.config o'
  | .drive role call => (driveServer (w.party role).setup call (w.party role).loc).slot.peer.isSome
  | .packet _ _ _ => True
  | .deliver role call => call.eventRoom = true ∧ HasRoom (w.party role).loc ∧
    NoncesLast (w.party role)
  | .runtime role shared => shared.config = (w.party role).loc.shared.config ∧
    shared.sessionActive (w.party role).session = true

/-- Transports of the two ends of a connection: each opens what the other seals from now on. -/
structure Paired (s c : DatagramTransport N) : Prop where
  forth_key : c.inKey = s.outKey
  forth_nonce : ∀ n, c.replay.highest = some n → n < s.sendNonce
  back_key : s.inKey = c.outKey
  back_nonce : ∀ n, s.replay.highest = some n → n < c.sendNonce

structure Start (w : Connection N) : Prop where
  kind : ∀ role, (w.party role).setup.kind = .kcp
  config : w.client.loc.shared.config = w.server.loc.shared.config
  active : ∀ role, (w.party role).loc.shared.sessionActive (w.party role).session = true
  engine : ∀ role, (w.party role).loc.slot.engine.isSome
  read : w.client.read = (queuedOf w.server.loc).length ∧
    w.server.read ≤ (queuedOf w.client.loc).length
  ends : ∃ mode epoch s c c', epoch ≤ u64Max ∧ Paired s c ∧
    Hosts w.server.loc w.server.session ⟨.new .server mode epoch, s⟩ ∧
    Hosts w.client.loc w.client.session ⟨.new .client mode epoch, c'⟩ ∧
    ((c' = c ∧ w.incoming .server = []) ∨
      ∃ record, protectedRecord c epoch .authAck [] 32 = (c', .ok record) ∧
        w.incoming .server = [recordBytes record])

def machine (N : Noise) : Machine (Connection N) (Input N) where
  init := Start
  step := step

/-! ### Phases of a connection -/

/-- A side is one end of an exchange, with `packets` under way to it. -/
structure Represents (c : RuntimeConfig) (p : Party N) (queue : List Bytes)
    (side : Side (DatagramTransport N)) (packets : List (Packet Bytes)) : Prop where
  hosts : Hosts p.loc p.session side
  kind : p.setup.kind = .kcp
  config : p.loc.shared.config = c
  active : p.loc.shared.sessionActive p.session = true
  engine : p.loc.slot.engine.isSome
  read : p.read ≤ queue.length
  incoming : queue.drop p.read = packets.map bytesOf
  packed : ∀ x ∈ packets, Packed c x

/-- A connection in a phase of the ordered barrier. -/
structure Sound (laws : N.CipherLaws) (c : RuntimeConfig) (w : Connection N)
    (x : Exchange (DatagramTransport N) Bytes) : Prop where
  phase : Phase (link laws c) (TakesKcp c) x
  ends : ∀ role, Represents c (w.party role) (w.queue role) (x.side role) (x.incoming role)

variable {c : RuntimeConfig}

theorem Represents.append (h : Represents c p queue side packets)
    (hq : queue' = queue ++ out.map bytesOf) (ho : ∀ x ∈ out, Packed c x) :
    Represents c p queue' side (packets ++ out) where
  hosts := h.hosts
  kind := h.kind
  config := h.config
  active := h.active
  engine := h.engine
  read := h.read.trans (by rw [hq, List.length_append]; omega)
  incoming := by rw [hq, List.drop_append_of_le_length h.read, h.incoming, List.map_append]
  packed x hx := (List.mem_append.mp hx).elim (h.packed x) (ho x)

variable {laws : N.CipherLaws} {w : Connection N}

theorem sound_settle (h : Sound laws c w x) (role : Role) {read : ℕ}
    (hr : read ≤ (w.queue role).length) (hre : (w.queue role).drop read = rest.map bytesOf)
    (hm : ∀ p ∈ rest, p ∈ x.incoming role)
    (hl : Leaves (w.party role).loc l (w.party role).session fun side out =>
      Phase (link laws c) (TakesKcp c) (x.put role side rest out)) :
    ∃ x', Sound laws c (w.settle role read l) x' := by
  obtain ⟨side, out, hh, hph, ha, hpa⟩ := hl
  have he := h.ends role
  rw [he.config] at hpa
  have hac : l.shared.sessionActive (w.party role).session = true := by
    rw [Shared.sessionActive, ha.sessions]
    exact he.active
  have hs : Represents c { w.party role with loc := l, read := read } (w.queue role) side rest :=
    ⟨hh, he.kind, ha.config.trans he.config, hac, ha.engine, hr, hre,
      fun p hp => he.packed p (hm p hp)⟩
  refine ⟨x.put role side rest out, hph, ?_⟩
  cases role <;> rintro (_ | _)
  case server.server => exact hs
  case server.client => exact (h.ends .client).append ha.queued hpa
  case client.server => exact (h.ends .server).append ha.queued hpa
  case client.client => exact hs

section Routines

variable {laws : N.CipherLaws} {c : RuntimeConfig} {w : Connection N}
  {x : Exchange (DatagramTransport N) Bytes}

theorem Sound.settle (h : Sound laws c w x) (role : Role)
    (hl : Leaves (w.party role).loc l (w.party role).session fun side out =>
      Phase (link laws c) (TakesKcp c) (x.put role side (x.incoming role) out)) :
    ∃ x', Sound laws c (w.settle role (w.party role).read l) x' :=
  sound_settle h role (h.ends role).read (h.ends role).incoming (fun _ hp => hp) hl

theorem Sound.idle (h : Sound laws c w x) (role : Role) : Phase (link laws c) (TakesKcp c)
    (x.put role (x.side role) (x.incoming role) []) := by
  rw [Exchange.put_self]
  exact h.phase

variable {role : Role} {call : Call N}

variable (h : Sound laws c w x)
include h

theorem sound_outbound (hg : Succeeds w (.outbound role call o)) :
    ∃ x', Sound laws c (step w (.outbound role call o)) x' := by
  obtain ⟨hs, ha⟩ := hg
  have he := h.ends role
  refine h.settle role (leaves_takeOutbound laws he.hosts he.kind he.engine ha hs
    (h.idle role) (fun t' hi ht => h.phase.wastes hi ht) fun p t' hi hp ht => ?_)
  rw [he.config] at hp ht
  exact h.phase.sends hi hp ht

theorem sound_flush (hg : Succeeds w (.flush role call)) :
    ∃ x', Sound laws c (step w (.flush role call)) x' := by
  obtain ⟨hs, ha⟩ := hg
  have he := h.ends role
  refine h.settle role (leaves_flushDeferred laws he.hosts he.kind he.engine ha hs
    (h.idle role) (fun t' hi ht => h.phase.wastes hi ht) fun p t' hi hp ht => ?_)
  rw [he.config] at hp ht
  exact h.phase.sends hi hp ht

theorem sound_drive (hg : Succeeds w (.drive role call)) :
    ∃ x', Sound laws c (step w (.drive role call)) x' := by
  have he := h.ends role
  refine h.settle role (leaves_driveServer laws he.hosts he.kind he.engine hg
    (h.idle role) fun c' k t' cipher hk ht => ?_)
  rw [he.config] at ht
  exact h.phase.proposes hk ht

theorem sound_packet (role : Role) (call : Call N) (input : KcpInput) :
    ∃ x', Sound laws c (step w (.packet role call input)) x' := by
  have hen := h.ends role
  obtain ⟨e, he⟩ := Option.isSome_iff_exists.mp hen.engine
  have hd := sameDriver_receiveKcp call (w.party role).loc input
  have hq : (receiveKcp call (w.party role).loc input).1.slot.engine.isSome ∧
      queuedOf (receiveKcp call (w.party role).loc input).1 = queuedOf (w.party role).loc := by
    unfold receiveKcp queuedOf
    rw [he]
    dsimp only
    split <;> exact ⟨rfl, rfl⟩
  refine h.settle role ⟨x.side role, [], ?_, h.idle role, ⟨?_, ?_, hq.1, ?_⟩, nofun⟩
  · obtain ⟨commands, lastActivity, deadline, hp⟩ := hen.hosts
    exact ⟨commands, lastActivity, deadline, hd.peer.trans hp⟩
  · rw [hd.shared]
  · rw [hd.shared]
  · rw [hq.2, List.map_nil, List.append_nil]

theorem sound_runtime (hg : Succeeds w (.runtime role shared)) :
    ∃ x', Sound laws c (step w (.runtime role shared)) x' := by
  obtain ⟨hc, ha⟩ := hg
  have he := h.ends role
  have hs : Represents c { w.party role with loc := { (w.party role).loc with shared := shared } }
      (w.queue role) (x.side role) (x.incoming role) :=
    ⟨he.hosts, he.kind, hc.trans he.config, ha, he.engine, he.read,
      he.incoming, he.packed⟩
  refine ⟨x, h.phase, ?_⟩
  cases role <;> rintro (_ | _)
  case server.server => exact hs
  case server.client => exact h.ends .client
  case client.server => exact h.ends .server
  case client.client => exact hs

theorem delivers_next (role : Role) :
    w.incoming role = [] ∨ ∃ p rest, x.incoming role = p :: rest ∧ Packed c p ∧
      w.incoming role = bytesOf p :: rest.map bytesOf ∧
      Delivers (link laws c) (TakesKcp c) (x.side role) p fun side out =>
        Phase (link laws c) (TakesKcp c) (x.put role side rest out) := by
  have he := h.ends role
  have hi : w.incoming role = (x.incoming role).map bytesOf := he.incoming
  cases hq : x.incoming role with
  | nil => exact .inl (by rw [hi, hq]; rfl)
  | cons p rest =>
    exact .inr ⟨p, rest, rfl, he.packed p (by rw [hq]; exact List.mem_cons_self),
      by rw [hi, hq]; rfl, h.phase.receives hq⟩

theorem sound_deliver (hg : Succeeds w (.deliver role call)) :
    ∃ x', Sound laws c (step w (.deliver role call)) x' := by
  obtain ⟨hev, hro, hn⟩ := hg
  have he := h.ends role
  unfold step
  dsimp only
  rcases delivers_next h role with hni | ⟨p, rest, hq, hp, hi, hd⟩
  · rw [hni]; exact ⟨x, h⟩
  rw [hi]
  rw [← he.config] at hp hd
  have hl := leaves_receiveRecord laws (w.party role).remote (w.party role).initialSession
    he.hosts hd (h.phase.epoch_le role) hp he.kind he.active hev hro
    (hn _ he.hosts)
  rw [he.config] at hl
  have hdr : (w.queue role).drop ((w.party role).read + 1) = rest.map bytesOf := by
    rw [← List.drop_drop, show (w.queue role).drop (w.party role).read = _ from hi]
    rfl
  have hr : (w.party role).read + 1 ≤ (w.queue role).length := by
    have hle := congrArg List.length hi
    rw [Connection.incoming, List.length_drop, List.length_cons] at hle
    omega
  exact sound_settle h role hr hdr
    (fun y hy => by rw [hq]; exact List.mem_cons_of_mem _ hy) hl

end Routines

/-- **A routine whose sends succeed keeps the connection in a phase.** -/
theorem sound_step (h : ∃ x, Sound laws c w x) (hg : Succeeds w input) :
    ∃ x, Sound laws c (step w input) x := by
  obtain ⟨x, h⟩ := h
  cases input with
  | outbound role call o => exact sound_outbound h hg
  | flush role call => exact sound_flush h hg
  | drive role call => exact sound_drive h hg
  | packet role call input => exact sound_packet h role call input
  | deliver role call => exact sound_deliver h hg
  | runtime role shared => exact sound_runtime h hg

theorem linked_of_paired {laws : N.CipherLaws} {c : RuntimeConfig} {s t : DatagramTransport N}
    (h : Paired s t) : Joined (link laws c) s t [] [] :=
  ⟨⟨h.forth_key, s.sendNonce, h.forth_nonce, le_refl _⟩,
    ⟨h.back_key, t.sendNonce, h.back_nonce, le_refl _⟩⟩

theorem sound_start (h : Start w) : ∃ x, Sound laws w.server.loc.shared.config w x := by
  obtain ⟨mode, epoch, s, c, c', hle, hpai, hs, hc, ha⟩ := h.ends
  have hl := @linked_of_paired N laws w.server.loc.shared.config s c hpai
  have he : ∀ acks : List (Packet Bytes), w.incoming .server = acks.map bytesOf →
      (∀ p ∈ acks, Packed w.server.loc.shared.config p) →
      ∀ role, Represents w.server.loc.shared.config (w.party role) (w.queue role)
        ((⟨⟨.new .server mode epoch, s⟩, ⟨.new .client mode epoch, c'⟩, [], acks⟩ :
          Exchange _ _).side role)
        ((⟨⟨.new .server mode epoch, s⟩, ⟨.new .client mode epoch, c'⟩, [], acks⟩ :
          Exchange _ _).incoming role) := by
    rintro acks hac hpa (_ | _)
    · exact ⟨hs, h.kind .server, rfl, h.active .server, h.engine .server, h.read.2, hac,
        hpa⟩
    · exact ⟨hc, h.kind .client, h.config, h.active .client, h.engine .client, h.read.1.le,
        List.drop_eq_nil_of_le h.read.1.ge, nofun⟩
  obtain ⟨rfl, hq⟩ | ⟨record, hr, hi⟩ := ha
  · exact ⟨_, .calm hle hl nofun nofun, he [] hq nofun⟩
  obtain ⟨-, hu, hn, y, hwr, rfl, rfl⟩ := protectedRecord_eq_ok.mp hr
  have hy := laws.length_write hwr
  have hse : (link laws w.server.loc.shared.config).Seals c ⟨.authAck, []⟩
      { c with sendNonce := c.sendNonce + 1 } (toBytes 8 c.sendNonce ++ y) :=
    ⟨⟨Nat.zero_le _, hu⟩, DatagramTransport.encrypt_eq_ok.mpr ⟨hn, y, hwr, rfl, rfl⟩⟩
  have ha : Business (TakesKcp w.server.loc.shared.config) mode epoch
      (.wrapped epoch ⟨.authAck, []⟩ (toBytes 8 c.sendNonce ++ y)) :=
    ⟨rfl, nofun, nofun, .inr rfl⟩
  refine ⟨_, .calm hle (hl.swap.seals hse).swap
    (fun _ hp => absurd hp List.not_mem_nil) ?_, he
    [.wrapped epoch ⟨.authAck, []⟩ (toBytes 8 c.sendNonce ++ y)] hi ?_⟩
  · rintro p (_ | ⟨_, ⟨⟩⟩)
    exact ha
  rintro p (_ | ⟨_, ⟨⟩⟩)
  rw [length_protectedBytes] at hy
  simp only [Packed, Packet.record, List.length_append, length_toBytes, hy, List.length_nil,
    protectedHeaderLen, tagLen, u32Max]
  omega

theorem sound_of_reach (laws : N.CipherLaws) (h : (machine N).Reach Succeeds w) :
    ∃ c x, Sound laws c w x := by
  refine Machine.Reach.invariant (I := fun w => ∃ c x, Sound laws c w x) ?_ ?_ h
  · intro w hst
    exact ⟨_, sound_start hst⟩
  · rintro w input ⟨c, hs⟩ hg
    exact ⟨c, sound_step hs hg⟩

/-! ### Every record is accepted -/

/-- Nothing is under way to a side, or the next record is accepted: it is of the controller's epoch,
comes in the form the mode asks for, was sealed under the key it is opened with, carries a control
only if the controller handles it, and is processed if there is room for its answer and its event. -/
def Accepts (p : Party N) (incoming : List Bytes) : Prop :=
  incoming = [] ∨ ∃ record rest side t message, incoming = recordBytes record :: rest ∧
    decodeRecord (recordBytes record) (recordLimit p.setup p.loc.shared.config) = .ok record ∧
    Hosts p.loc p.session side ∧
    openMessage (p.loc.shared.config.maxBodyLen + 64) side.transport side.controller record =
      (t, .ok message) ∧ Suits side.controller record message ∧
    (record.kind = .protectedRecord → ∀ key nonce plain x, nonce ≤ u64Max →
      N.write key nonce plain = some x → record.payload = toBytes 8 nonce ++ x →
      key = side.transport.inKey) ∧
    ∀ call : Call N, call.eventRoom = true → HasRoom p.loc → NoncesLast p →
      (process p.setup call p.loc record).2 = .ok ()

theorem key_of_opens (ideal : N.Ideal) (h : (link laws c).opens r cipher = some (r', m))
    (hn : nonce ≤ u64Max) (hwr : N.write key nonce plain = some x)
    (hc : cipher = toBytes 8 nonce ++ x) : key = r.inKey := by
  obtain ⟨_, hd, -⟩ := messageOf_eq_some h
  obtain ⟨-, -, hr, -⟩ := DatagramTransport.decrypt_eq_ok.mp hd
  have hf : field cipher 0 8 = nonce := by
    rw [hc]
    exact field_toBytes_append x (by unfold u64Max at hn; omega)
  rw [hf, hc, List.drop_left' (length_toBytes 8 nonce)] at hr
  exact (ideal.read_sealed hn hn hwr hr).1.symm

theorem opened_of_delivers (ideal : N.Ideal) (hd : Delivers (link laws c) (TakesKcp c) side p K) :
    ∃ t, openMessage (c.maxBodyLen + 64) side.transport side.controller p.record = (t,
      .ok p.message) ∧ (p.record.kind = .protectedRecord → ∀ key nonce plain x, nonce ≤ u64Max →
      N.write key nonce plain = some x → p.record.payload = toBytes 8 nonce ++ x → key =
      side.transport.inKey) := by
  cases hd with
  | plain hp hm =>
    subst hp
    refine ⟨side.transport, ?_, nofun⟩
    show openMessage _ _ _ ⟨.plainData, side.controller.epoch, _⟩ = _
    unfold openMessage
    rw [if_pos hm]
    rfl
  | business hp ho | silent hp ho | answered hp ho =>
    subst hp
    exact ⟨_, openMessage_wrapped laws ho, fun _ _ _ _ _ => key_of_opens ideal ho⟩

theorem accepts_of_sound (ideal : N.Ideal) (h : Sound laws c w x) (role : Role) :
    Accepts (w.party role) (w.incoming role) := by
  have he := h.ends role
  rcases delivers_next h role with hni | ⟨p, rest, hq, hp, hi, hd⟩
  · exact .inl hni
  rw [← he.config] at hp hd
  have hs := suits_of_delivers hd
  have hde := decodeRecord_bytesOf he.kind (hs.epoch ▸ h.phase.epoch_le role) hp
  obtain ⟨t, ho, hk⟩ := opened_of_delivers ideal hd
  refine .inr ⟨p.record, _, x.side role, t, p.message, hi, hde, he.hosts, ho,
    hs, hk, fun call hev hr hn => ?_⟩
  obtain ⟨l, hpr, -⟩ := leaves_process laws he.hosts hd he.kind he.active hev hr
    (hn _ he.hosts)
  rw [hpr]

end Rnet.Transport.KcpBarrier
