import Rnet.Security.Disciplines
import Rnet.Security.Ordered
import Rnet.Transport.Arms

/-! # One end of a KCP connection

The routines of the datagram worker for an established KCP peer, as steps of one end of the ordered
barrier: a delivered packet is accepted, a message of the application leaves as a packet of the
current mode and epoch, a tick may send a proposal. A message that meets backpressure is sealed and
not sent, so the nonces on a KCP stream have gaps. -/

namespace Rnet.Transport.KcpEnd

open Rnet.Core Lib.BigEndian Lib.SealedChannel
open Protocol.Framing (decodeDatagram length_le_of_decodeDatagram)
open Protocol.Records Security.Cipher Security.Controller Security.Disciplines Security.Ordered
open Config State Slots Codec Wire Session Process Maintenance
open Arms hiding Leaves

variable {N : Noise}

/-! ### The engine -/

def queuedOf (l : Local N) : List Bytes := (l.slot.engine.map KcpEngine.queued).getD []

def controlRecordLen : ℕ := 59

def HasRoom (l : Local N) : Prop :=
  ∃ e, l.slot.engine = some e ∧ e.failed = false ∧
    l.kcpQueuedBytes + queuedBytesFor l.shared.config controlRecordLen ≤
      l.shared.config.maxRuntimeQueuedBytes ∧
    queuedBytes l.shared.config e + queuedBytesFor l.shared.config controlRecordLen ≤
      l.shared.config.maxSessionQueuedBytes ∧
    fragments l.shared.config controlRecordLen < 128

/-- What the wire leaves alone while it queues records. -/
structure Queued (l l' : Local N) (bytes : List Bytes) : Prop where
  driver : SameDriver l l'
  engine : l'.slot.engine.isSome
  queued : queuedOf l' = queuedOf l ++ bytes

variable {l : Local N}

theorem queueKcp_cases (call : Call N) (bytes : Bytes) (control : Bool)
    (he : l.slot.engine.isSome) :
    (∃ l', queueKcp call l bytes control = (l', .ok ()) ∧ Queued l l' [bytes]) ∨
      ∃ e, queueKcp call l bytes control = (l, .error e) := by
  obtain ⟨e, he⟩ := Option.isSome_iff_exists.mp he
  have hd := sameDriver_queueKcp call l bytes control
  unfold queueKcp engine at hd ⊢
  rw [he] at hd ⊢
  dsimp only at hd ⊢
  split_ifs at hd ⊢
  · exact .inr ⟨_, rfl⟩
  unfold kcpSend at hd ⊢
  split_ifs at hd ⊢
  · exact .inr ⟨_, rfl⟩
  · exact .inr ⟨_, rfl⟩
  · exact .inr ⟨_, rfl⟩
  refine .inl ⟨_, rfl, hd, rfl, ?_⟩
  rw [queuedOf, queuedOf, he]
  rfl

theorem queueKcp_control {call : Call N} {l : Local N} {bytes : Bytes} (hr : HasRoom l)
    (hl : bytes.length = controlRecordLen) :
    ∃ l', queueKcp call l bytes true = (l', .ok ()) ∧ Queued l l' [bytes] := by
  obtain ⟨e, he, hf, hru, hs, hfr⟩ := hr
  rcases queueKcp_cases call bytes true (Option.isSome_iff_exists.mpr ⟨e, he⟩) with h | ⟨err, her⟩
  · exact h
  exfalso
  unfold queueKcp engine at her
  simp only [he, hl, runtimeLimit, sessionLimit, if_true] at her
  rw [if_neg (by omega)] at her
  unfold kcpSend at her
  rw [hf, hl] at her
  simp only [Bool.false_eq_true, if_false] at her
  rw [if_neg (by omega), if_neg (by omega)] at her
  exact absurd (congrArg Prod.snd her) nofun

/-! ### Controls -/

/-- What the receive path takes: application messages, and the acknowledgement of the join. -/
def TakesKcp (c : RuntimeConfig) (m : ProtectedMessage) : Prop := Takes c m ∨ m = ⟨.authAck, []⟩

abbrev link (laws : N.CipherLaws) (c : RuntimeConfig) :
    Discipline (DatagramTransport N) ProtectedMessage Bytes := window laws (c.maxBodyLen + 64)

def bytesOf (p : Packet Bytes) : Bytes := recordBytes p.record

def Packed (c : RuntimeConfig) (p : Packet Bytes) : Prop :=
  p.record.payload.length ≤ c.maxBodyLen + (20 + 64) ∧ p.record.payload.length ≤ u32Max

variable {t : DatagramTransport N}

theorem protectedRecord_control (laws : N.CipherLaws) (c : RuntimeConfig) (epoch : ℕ) (k : Control)
    (hn : t.sendNonce < u64Max) :
    ∃ t' cipher, protectedRecord t epoch .control (encodeControl k) 64 =
        (t', .ok ⟨.protectedRecord, epoch, cipher⟩) ∧
      (link laws c).Seals t (controlMessage k) t' cipher ∧
      Packed c (.wrapped epoch (controlMessage k) cipher) ∧ cipher.length = 39 := by
  have hl : (encodeControl k).length = 10 := length_encodeControl k
  obtain ⟨x, hwr⟩ : ∃ x, N.write t.outKey t.sendNonce (protectedBytes (controlMessage k)) =
      some x := by
    rw [← Option.isSome_iff_exists, laws.write_isSome, length_protectedBytes]
    simp only [controlMessage, hl, protectedHeaderLen, tagLen, maxMessageLen]
    omega
  have hx := laws.length_write hwr
  rw [length_protectedBytes] at hx
  simp only [controlMessage, hl, protectedHeaderLen, tagLen] at hx
  have hc : (toBytes 8 t.sendNonce ++ x).length = 39 := by
    rw [List.length_append, length_toBytes, hx]
  refine ⟨_, _, protectedRecord_eq_ok.mpr ⟨by omega, ?_, hn, x, hwr, rfl, rfl⟩, ⟨⟨?_, ?_⟩,
    DatagramTransport.encrypt_eq_ok.mpr ⟨hn, x, hwr, rfl, rfl⟩⟩, ⟨?_, ?_⟩, hc⟩ <;>
    simp only [controlMessage, hl, hc, Packet.record, u32Max] <;> omega

theorem respond_queued (laws : N.CipherLaws) {setup : Setup N} {call : Call N} {l : Local N}
    {t : DatagramTransport N} (hk : setup.kind = .kcp) (hro : HasRoom l)
    (hn : t.sendNonce < u64Max) (epoch : ℕ) (k : Control) :
    ∃ l' t' cipher, respond setup call l t epoch (some k) = (l', t', .ok ()) ∧
      (link laws l.shared.config).Seals t (controlMessage k) t' cipher ∧
      Packed l.shared.config (.wrapped epoch (controlMessage k) cipher) ∧
      Queued l l' [bytesOf (.wrapped epoch (controlMessage k) cipher)] := by
  obtain ⟨t', cipher, hr, hs, hp, hl⟩ :=
    protectedRecord_control laws l.shared.config epoch k hn
  have he : encodeRecord ⟨.protectedRecord, epoch, cipher⟩ (64 + 64) =
      .ok (bytesOf (.wrapped epoch (controlMessage k) cipher)) :=
    encodeRecord_eq_ok.mpr ⟨by simp only; omega, hp.2, rfl⟩
  obtain ⟨l', hq, hqu⟩ := @queueKcp_control N call l
    (bytesOf (.wrapped epoch (controlMessage k) cipher)) hro (by
      simp only [bytesOf, length_recordBytes, Packet.record, hl]; rfl)
  refine ⟨l', t', cipher, ?_, hs, hp, hqu⟩
  unfold respond
  dsimp only
  split_ifs
  · unfold sendProtectedResponse sendResponse
    rw [hr]
    simp only [he, hk, if_true, hq]
  · unfold sendProtected sendReliable
    rw [hr]
    simp only [he, hk, if_true, hq]

/-! ### The receive path -/

/-- What an arm of the receive path leaves of the local state: the wire queued `bytes`, and the
application got events. -/
structure Arm (l l' : Local N) (bytes : List Bytes) : Prop where
  config : l'.shared.config = l.shared.config
  sessions : l'.shared.sessions = l.shared.sessions
  engine : l'.slot.engine.isSome
  queued : queuedOf l' = queuedOf l ++ bytes

/-- The receive path accepts and becomes what `K` says. -/
def Handles (l : Local N) (out : Outcome N)
    (K : Side (DatagramTransport N) → List (Packet Bytes) → Prop) : Prop :=
  out.result = .ok () ∧ ∃ packets, K ⟨out.controller, out.transport⟩ packets ∧
    Arm l out.loc (packets.map bytesOf) ∧ ∀ p ∈ packets, Packed l.shared.config p

variable {call : Call N}

theorem pushEvent_ok (event : Event) (hr : call.eventRoom = true) (he : l.slot.engine.isSome) :
    (pushEvent call l event).2 = .ok () ∧
      Arm l (pushEvent call l event).1 [] := by
  unfold pushEvent
  rw [hr]
  exact ⟨rfl, rfl, rfl, he, (List.append_nil _).symm⟩

theorem Arm.of_queued (h : Queued l l' bytes) : Arm l l' bytes := by
  refine ⟨?_, ?_, h.engine, h.queued⟩ <;> rw [h.driver.shared]

theorem Arm.trans (h : Arm l₁ l₂ b) (h' : Arm l₂ l₃ b') : Arm l₁ l₃ (b ++ b') where
  config := h'.config.trans h.config
  sessions := h'.sessions.trans h.sessions
  engine := h'.engine
  queued := by rw [h'.queued, h.queued, List.append_assoc]

theorem sendNonce_apply (effect : Effect) (h : t.sendNonce < u64Max) :
    (apply t effect).sendNonce < u64Max := by
  unfold apply
  split_ifs
  · exact Nat.zero_lt_of_lt h
  · exact h

theorem finishControl_ok {setup : Setup N} {call : Call N} {l l' : Local N} {session : Handle}
    {t : DatagramTransport N} {c : SecurityController} (kind : ControlKind) {bytes : List Bytes}
    (hr : call.eventRoom = true) (h : Arm l l' bytes) :
    ∃ l'', finishControl setup call l' session t c kind = ⟨l'', t, c, .ok ()⟩ ∧
      Arm l l'' bytes := by
  unfold finishControl
  split
  · rename_i operation _
    obtain ⟨ho, ha⟩ := pushEvent_ok (securityChangedEvent setup.endpoint session operation c.mode
      c.epoch) hr h.engine
    have ht := h.trans ha
    rw [List.append_nil] at ht
    split_ifs
    · exact ⟨l', rfl, h⟩
    · exact ⟨_, congrArg (Outcome.mk _ t c) ho, ht⟩
  · exact ⟨l', rfl, h⟩

theorem Arm.refl (h : l.slot.engine.isSome) : Arm l l [] :=
  ⟨rfl, rfl, h, (List.append_nil _).symm⟩

theorem HasRoom.engine (h : HasRoom l) : l.slot.engine.isSome := by
  obtain ⟨e, he, -⟩ := h
  exact Option.isSome_iff_exists.mpr ⟨e, he⟩

variable {setup : Setup N} {session : Handle} {c : SecurityController}
  {K : Side (DatagramTransport N) → List (Packet Bytes) → Prop}

theorem handles_silent (hev : call.eventRoom = true) (he : l.slot.engine.isSome)
    (hwe : k.WellFormed) (hh : c.handle k = (c', .ok ⟨before, none, .none⟩))
    (hk : K ⟨c', apply t before⟩ []) :
    Handles l (handleControl setup call l session t c epoch (encodeControl k)) K := by
  obtain ⟨l', hf, ha⟩ := @finishControl_ok N setup call l l session
    (apply (apply t before) .none) c' k.kind [] hev (.refl he)
  unfold handleControl respond
  rw [decodeControl_encodeControl hwe]
  dsimp only
  rw [hh]
  dsimp only
  rw [hf]
  exact ⟨rfl, [], hk, ha, nofun⟩

theorem handles_answered (laws : N.CipherLaws) {before after : Effect} (hki : setup.kind = .kcp)
    (he : call.eventRoom = true) (hro : HasRoom l) (hn : t.sendNonce < u64Max) (hwe : k.WellFormed)
    (hh : c.handle k = (c', .ok ⟨before, some r, after⟩))
    (hk : ∀ t' cipher, (link laws l.shared.config).Seals (apply t before) (controlMessage r) t'
      cipher → K ⟨c', apply t' after⟩ [.wrapped epoch (controlMessage r) cipher]) :
    Handles l (handleControl setup call l session t c epoch (encodeControl k)) K := by
  obtain ⟨l', t', cipher, hr, hs, hpa, hq⟩ := @respond_queued N laws setup call l
    (apply t before) hki hro (sendNonce_apply before hn) epoch r
  obtain ⟨l'', hf, ha⟩ := @finishControl_ok N setup call l l' session (apply t' after) c'
    k.kind _ he (.of_queued hq)
  unfold handleControl
  rw [decodeControl_encodeControl hwe]
  dsimp only
  rw [hh]
  dsimp only
  rw [hr]
  dsimp only
  rw [hf]
  refine ⟨rfl, [.wrapped epoch (controlMessage r) cipher], hk t' cipher hs, ha, fun p hp => ?_⟩
  rw [List.mem_singleton] at hp
  exact hp ▸ hpa

theorem openMessage_wrapped (laws : N.CipherLaws) {config : RuntimeConfig}
    {t t' : DatagramTransport N} {c : SecurityController} {epoch : ℕ} {message : ProtectedMessage}
    {cipher : Bytes} (h : (link laws config).opens t cipher = some (t', message)) :
    openMessage (config.maxBodyLen + 64) t c ⟨.protectedRecord, epoch, cipher⟩ =
      (t', .ok message) := by
  obtain ⟨plain, hd, hde⟩ := messageOf_eq_some h
  simp only [openMessage, Codec.decrypt, hd, hde]

theorem handles_takes (hev : call.eventRoom = true) (he : l.slot.engine.isSome)
    (hm : TakesKcp l.shared.config m)
    (hmo : m.kind = .data → record.kind = .protectedRecord → c.mode = .encrypted)
    (hga : m.kind = .gameControl → record.kind = .protectedRecord) (hk : K ⟨c, t⟩ []) :
    Handles l (dispatch setup call l session t c record m) K := by
  obtain ⟨kind, payload⟩ := m
  obtain (⟨hd, frame, hf⟩ | ⟨hki, hl⟩) | hac := hm
  · dsimp only at hd
    subst hd
    obtain ⟨ho, ha⟩ := pushEvent_ok (messageEvent setup.endpoint session frame
      (record.kind = .protectedRecord)) hev he
    have hg : ¬ (record.kind = .protectedRecord ∧ c.mode ≠ .encrypted) :=
      fun h => h.2 (hmo rfl h.1)
    unfold dispatch
    rw [if_neg hg, hf]
    exact ⟨ho, [], hk, ha, nofun⟩
  · dsimp only at hki
    subst hki
    obtain ⟨ho, ha⟩ := pushEvent_ok (gameControlEvent setup.endpoint session payload) hev he
    unfold dispatch
    rw [if_pos (hga rfl), if_neg (not_lt.mpr hl)]
    exact ⟨ho, [], hk, ha, nofun⟩
  · cases hac
    exact ⟨rfl, [], hk, .refl he, nofun⟩

/-- **The receive path accepts what the ordered barrier delivers.** -/
theorem handles_delivered (laws : N.CipherLaws) {setup : Setup N} {call : Call N} {l : Local N}
    {session : Handle} {t : DatagramTransport N} {c : SecurityController} {p : Packet Bytes}
    {K : Side (DatagramTransport N) → List (Packet Bytes) → Prop}
    (hd : Delivers (link laws l.shared.config) (TakesKcp l.shared.config) ⟨c, t⟩ p K)
    (hki : setup.kind = .kcp) (ha : l.shared.sessionActive session = true)
    (hev : call.eventRoom = true) (hr : HasRoom l) (hn : t.sendNonce < u64Max) :
    Handles l (handleEstablished setup call l session t c p.record) K := by
  have he := hr.engine
  cases hd with
  | @plain data hp hm hal hk =>
    subst hp
    have hop : openMessage (l.shared.config.maxBodyLen + 64) t c ⟨.plainData, c.epoch, data⟩ =
        (t, .ok ⟨.data, data⟩) := by
      unfold openMessage
      rw [if_pos hm]
    show Handles l (handleEstablished setup call l session t c ⟨.plainData, c.epoch, data⟩) K
    rw [handleEstablished_of_open ha rfl hop]
    exact handles_takes hev he hal nofun nofun hk
  | @business message cipher t' hp ho _ hm hal hk =>
    subst hp
    have hop := @openMessage_wrapped N laws l.shared.config t t' c c.epoch message cipher ho
    show Handles l (handleEstablished setup call l session t c ⟨.protectedRecord, c.epoch, cipher⟩) K
    rw [handleEstablished_of_open ha rfl hop]
    exact handles_takes hev he hal (fun h _ => hm h) (fun _ => rfl) hk
  | @silent k cipher t' c' before hp ho hwe hh hk =>
    subst hp
    have hop := @openMessage_wrapped N laws l.shared.config t t' c c.epoch _ cipher ho
    show Handles l (handleEstablished setup call l session t c ⟨.protectedRecord, c.epoch, cipher⟩) K
    rw [handleEstablished_of_open ha rfl hop]
    exact handles_silent hev he hwe hh hk
  | @answered k r cipher t' c' before after hp ho hwe hh hk =>
    subst hp
    have hop := @openMessage_wrapped N laws l.shared.config t t' c c.epoch _ cipher ho
    have hn' : t'.sendNonce < u64Max := by
      obtain ⟨_, hde, -⟩ := messageOf_eq_some ho
      obtain ⟨-, -, -, rfl⟩ := DatagramTransport.decrypt_eq_ok.mp hde
      exact hn
    show Handles l (handleEstablished setup call l session t c ⟨.protectedRecord, c.epoch, cipher⟩) K
    rw [handleEstablished_of_open ha rfl hop]
    exact handles_answered laws hki hev hr hn' hwe hh hk

/-! ### The worker's routines -/

/-- The address is established with a session and its end. -/
def Hosts (l : Local N) (session : Handle) (side : Side (DatagramTransport N)) : Prop :=
  ∃ commands lastActivity deadline, l.slot.peer = some (.established session side.transport
    side.controller commands lastActivity deadline)

/-- A routine leaves the address established, and its end and the records it queued as `K` says. -/
def Leaves (l l' : Local N) (session : Handle)
    (K : Side (DatagramTransport N) → List (Packet Bytes) → Prop) : Prop :=
  ∃ side packets, Hosts l' session side ∧ K side packets ∧ Arm l l' (packets.map bytesOf) ∧
    ∀ p ∈ packets, Packed l.shared.config p

section Delivery

variable {setup : Setup N} {call : Call N} {l : Local N} {session : Handle}
  {side : Side (DatagramTransport N)} {p : Packet Bytes}
  {K : Side (DatagramTransport N) → List (Packet Bytes) → Prop}

theorem leaves_process (laws : N.CipherLaws) (hh : Hosts l session side)
    (hd : Delivers (link laws l.shared.config) (TakesKcp l.shared.config) side p K)
    (hki : setup.kind = .kcp) (hac : l.shared.sessionActive session = true)
    (he : call.eventRoom = true) (hro : HasRoom l)
    (hn : side.transport.sendNonce < u64Max) :
    ∃ l', process setup call l p.record = (l', .ok ()) ∧ Leaves l l' session K := by
  obtain ⟨commands, lastActivity, deadline, hpe⟩ := hh
  have hr : reachesSession setup p.record = true := by
    cases p <;> unfold reachesSession <;> split <;> first | rfl | (rename_i h; cases h)
  obtain ⟨ho, packets, hk, ha, hp⟩ := @handles_delivered N laws setup call (setPeer l none)
    session side.transport side.controller p K hd hki hac he hro hn
  unfold process
  rw [hpe, hr]
  unfold establishedArm
  dsimp only
  rw [ho]
  refine ⟨_, rfl, _, packets, ⟨commands, _, _, rfl⟩, hk, ?_, hp⟩
  exact ⟨ha.config, ha.sessions, ha.engine, ha.queued⟩

theorem decodeRecord_bytesOf {c : RuntimeConfig} (hk : setup.kind = .kcp)
    (he : p.record.epoch ≤ u64Max) (hp : Packed c p) :
    decodeRecord (bytesOf p) (recordLimit setup c) = .ok p.record := by
  unfold recordLimit
  rw [if_pos hk]
  exact decodeRecord_recordBytes he hp.1 hp.2

theorem leaves_receiveRecord (laws : N.CipherLaws) (remote : Option SocketAddr)
    (initialSession : Option Handle) (hh : Hosts l session side)
    (hd : Delivers (link laws l.shared.config) (TakesKcp l.shared.config) side p K)
    (hl : side.controller.epoch ≤ u64Max) (hpa : Packed l.shared.config p)
    (hki : setup.kind = .kcp) (hac : l.shared.sessionActive session = true)
    (he : call.eventRoom = true) (hr : HasRoom l)
    (hn : side.transport.sendNonce < u64Max) :
    Leaves l (receiveRecord setup remote initialSession call l (bytesOf p)).1 session K := by
  obtain ⟨l', hp, side', packets, ⟨commands, lastActivity, deadline, hpe⟩, hk, ha, hpk⟩ :=
    leaves_process laws hh hd hki hac he hr hn
  have hde := decodeRecord_bytesOf hki ((suits_of_delivers hd).epoch ▸ hl) hpa
  have hper : needsPermit setup call l p.record = false := by
    unfold needsPermit
    cases p <;> split <;> simp [Packet.record]
  have haf : ∀ prior joining, Leaves l (afterProcess remote initialSession call prior joining
      (l', .ok ())).1 session K := by
    intro prior joining
    unfold afterProcess
    dsimp only
    rw [hpe]
    refine ⟨side', packets, ⟨commands, lastActivity, deadline, ?_⟩, hk, ?_, hpk⟩
    · cases commands
      · exact hpe
      · rfl
    · cases commands <;> exact ⟨ha.config, ha.sessions, ha.engine, ha.queued⟩
  unfold receiveRecord
  rw [hde]
  dsimp only
  rw [hper]
  simp only [Bool.false_eq_true, if_false]
  have hb : beginInput setup call l (bytesOf p) = (l, false, none) := if_pos hki
  unfold serveRecord
  by_cases hpl : p.record.kind = .plainData
  · rw [if_pos hpl, hp]
    exact haf _ _
  rw [if_neg hpl, hb]
  dsimp only
  rw [hp]
  exact haf _ _

end Delivery

section Sending

variable {setup : Setup N} {call : Call N} {l l' : Local N} {session : Handle}
  {side : Side (DatagramTransport N)}
  {K : Side (DatagramTransport N) → List (Packet Bytes) → Prop}

variable {c : SecurityController} {o : Outbound}

theorem wastes_of_encodeOutbound {max : ℕ} (h : encodeOutbound t c o max = (t', .ok r)) :
    WindowWastes t t' := by
  have hs : ∀ {kind}, protectedRecord t c.epoch kind o.bytes max = (t', .ok r) →
      WindowWastes t t' := by
    intro kind hr
    obtain ⟨-, -, -, x, -, rfl, -⟩ := protectedRecord_eq_ok.mp hr
    exact ⟨t.sendNonce + 1, Nat.le_succ _, rfl⟩
  unfold encodeOutbound at h
  split at h
  · unfold dataRecord at h
    split at h
    · cases h; exact ⟨t.sendNonce, le_refl _, rfl⟩
    · exact hs h
  · exact hs h

theorem emits_of_encodeOutbound (laws : N.CipherLaws) (ha : Admissible config o)
    (h : encodeOutbound t c o config.maxBodyLen = (t', .ok r)) (hu : r.payload.length ≤ u32Max) :
    ∃ p : Packet Bytes, Business (TakesKcp config) c.mode c.epoch p ∧
      Emits (link laws config) t p t' ∧ r = p.record ∧ Packed config p := by
  obtain ⟨bytes, kind, _, _, _⟩ := o
  have hs : ∀ kind, kind ≠ .control → (kind = .data → c.mode = .encrypted) →
      Takes config ⟨kind, bytes⟩ →
      protectedRecord t c.epoch kind bytes config.maxBodyLen = (t', .ok r) →
      ∃ p : Packet Bytes, Business (TakesKcp config) c.mode c.epoch p ∧
        Emits (link laws config) t p t' ∧ r = p.record ∧ Packed config p := by
    intro kind hc hm ht hr
    obtain ⟨hma, hu32, hn, x, hwr, rfl, rfl⟩ := protectedRecord_eq_ok.mp hr
    have hx := laws.length_write hwr
    rw [length_protectedBytes] at hx
    refine ⟨.wrapped c.epoch ⟨kind, bytes⟩ (toBytes 8 t.sendNonce ++ x),
      ⟨rfl, hc, hm, .inl ht⟩, ⟨⟨?_, hu32⟩,
        DatagramTransport.encrypt_eq_ok.mpr ⟨hn, x, hwr, rfl, rfl⟩⟩, rfl, ?_, hu⟩
    · exact hma.trans (Nat.le_add_right ..)
    · simp only [Packet.record, List.length_append, length_toBytes, hx, protectedHeaderLen, tagLen]
      omega
  unfold encodeOutbound at h
  cases kind with
  | gameControl => exact hs .gameControl (by simp) (by simp) ha h
  | data =>
    unfold dataRecord at h
    cases hm : c.mode with
    | encrypted =>
      rw [hm] at h
      rw [← hm]
      exact hs .data (by simp) (fun _ => hm) ha h
    | plaintext =>
      rw [hm] at h
      cases h
      obtain ⟨-, frame, hf⟩ | ⟨hg, -⟩ := ha
      · have hl := length_le_of_decodeDatagram hf
        refine ⟨.plain c.epoch bytes, ⟨rfl, rfl, .inl (.inl ⟨rfl, frame, hf⟩)⟩, rfl, rfl, ?_, hu⟩
        have hh : Rnet.Protocol.Framing.headerLen = 20 := rfl
        show bytes.length ≤ _
        change bytes.length ≤ _ at hl
        omega
      · cases hg

theorem send_cases (hk : setup.kind = .kcp) (he : l.slot.engine.isSome) (record : Record)
    (max : ℕ) : (∃ l', send setup call l record max = (l', .ok ()) ∧
        Queued l l' [recordBytes record] ∧ record.payload.length ≤ u32Max) ∨
      ∃ e, send setup call l record max = (l, .error e) := by
  unfold send
  simp only [hk, if_true]
  cases hen : encodeRecord record u32Max with
  | error e => exact .inr ⟨e, rfl⟩
  | ok bytes =>
    obtain ⟨-, hu, rfl⟩ := encodeRecord_eq_ok.mp hen
    rcases queueKcp_cases call (recordBytes record) false he with ⟨l', hqu, hq⟩ | her
    · exact .inl ⟨l', hqu, hq, hu⟩
    · exact .inr her

variable {fate : Fate N}

variable (laws : N.CipherLaws)
include laws

theorem emits_of_attempts {t t' : DatagramTransport N} (hk : setup.kind = .kcp)
    (he : l.slot.engine.isSome) (ha : ∀ shared o', l.shared.resolveLatest o = (shared, some o') →
      Admissible l.shared.config o') (hwa : ∀ t', WindowWastes t t' → K ⟨c, t'⟩ [])
    (hs : ∀ p t', Business (TakesKcp l.shared.config) c.mode c.epoch p →
      Emits (link laws l.shared.config) t p t' → K ⟨c, t'⟩ [p])
    (h : Attempts setup call l t c o l' fate) (hf : fate.next t = some t') :
    ∃ packets, K ⟨c, t'⟩ packets ∧ Arm l l' (packets.map bytesOf) ∧
      ∀ p ∈ packets, Packed l.shared.config p := by
  obtain ⟨hc, hse⟩ := l.shared.kept_resolveLatest o
  have hsa : Arm l { l with shared := (l.shared.resolveLatest o).1 } [] :=
    ⟨hc, hse, he, (List.append_nil _).symm⟩
  cases h with
  | empty hr =>
    cases hf
    rw [hr] at hsa
    exact ⟨[], hwa t ⟨t.sendNonce, le_refl _, rfl⟩, hsa, nofun⟩
  | refused | failed => cases hf
  | @blocked shared o' _ record _ _ hr hen hsn | @handed shared o' _ record _ hr hen hsn =>
    cases hf
    have ha := ha shared o' hr
    rw [hr] at hc hsa
    rw [hc] at hen
    rcases @send_cases N setup call { l with shared := shared } hk he record
      shared.config.maxDatagramSize with ⟨l₂, hse, hq, hu⟩ | ⟨e, hse⟩ <;> cases hsn.symm.trans hse
    all_goals first
      | exact ⟨[], hwa _ (wastes_of_encodeOutbound hen), hsa, nofun⟩
      | obtain ⟨p, hp, hem, rfl, hpa⟩ := emits_of_encodeOutbound laws ha hen hu
        refine ⟨[p], hs p _ hp hem, hsa.trans (.of_queued hq), fun x hx => ?_⟩
        rw [List.mem_singleton] at hx
        exact hx ▸ hpa

theorem leaves_takeOutbound (hh : Hosts l session side) (hk : setup.kind = .kcp)
    (he : l.slot.engine.isSome) (ha : ∀ shared o', l.shared.resolveLatest o = (shared, some o') →
      Admissible l.shared.config o') (hs : (takeOutbound setup call l o).slot.peer.isSome)
    (hsa : K side []) (hwa : ∀ t', side.controller.pending = none →
      WindowWastes side.transport t' → K ⟨side.controller, t'⟩ [])
    (hse : ∀ p t', side.controller.pending = none →
      Business (TakesKcp l.shared.config) side.controller.mode side.controller.epoch p →
      Emits (link laws l.shared.config) side.transport p t' → K ⟨side.controller, t'⟩ [p]) :
    Leaves l (takeOutbound setup call l o) session K := by
  obtain ⟨commands, a, d, hpe⟩ := hh
  have ht := takes_takeOutbound setup call l o
  generalize takeOutbound setup call l o = l' at ht hs
  cases ht with
  | ignored => exact ⟨side, [], ⟨commands, a, d, hpe⟩, hsa, .refl he, nofun⟩
  | waits =>
    exact ⟨side, [], ⟨commands, a, d, hpe⟩, hsa, ⟨rfl, rfl, he, (List.append_nil _).symm⟩, nofun⟩
  | @attempts _ _ _ _ _ _ l₁ fate hp _ ht h =>
    cases hpe.symm.trans hp
    have hn := pending_of_stable ht
    have hem := fun t' => @emits_of_attempts N setup call (setPeer l none) l₁ K _ o fate laws _ t' hk he
      ha (fun t' => hwa t' hn) (fun p t' => hse p t' hn) h
    cases fate with
    | failed e =>
      change l₁.slot.peer.isSome at hs
      rw [h.driver.peer] at hs
      cases hs
    | _ =>
      obtain ⟨packets, hk, ha, hpa⟩ := hem _ rfl
      exact ⟨⟨_, _⟩, packets, ⟨commands, _, _, rfl⟩, hk,
        ⟨ha.config, ha.sessions, ha.engine, ha.queued⟩, hpa⟩

theorem leaves_flushDeferred (hh : Hosts l session side) (hki : setup.kind = .kcp)
    (he : l.slot.engine.isSome) (had : ∀ o shared o', l.slot.deferred.head? = some o →
      l.shared.resolveLatest o = (shared, some o') → Admissible l.shared.config o')
    (hs : (flushDeferred setup call l).slot.peer.isSome) (hsa : K side [])
    (hwa : ∀ t', side.controller.pending = none →
      WindowWastes side.transport t' → K ⟨side.controller, t'⟩ [])
    (hsen : ∀ p t', side.controller.pending = none →
      Business (TakesKcp l.shared.config) side.controller.mode side.controller.epoch p →
      Emits (link laws l.shared.config) side.transport p t' → K ⟨side.controller, t'⟩ [p]) :
    Leaves l (flushDeferred setup call l) session K := by
  obtain ⟨commands, a, d, hpe⟩ := hh
  have ht := flushes_flushDeferred setup call l
  generalize flushDeferred setup call l = l' at ht hs
  cases ht with
  | rests => exact ⟨side, [], ⟨commands, a, d, hpe⟩, hsa, .refl he, nofun⟩
  | @attempts _ _ _ _ _ _ o rest l₁ fate hp hf _ ht h =>
    cases hpe.symm.trans hp
    have hn := pending_of_stable ht
    have hem := fun t' => @emits_of_attempts N setup call (popped l rest) l₁ K _ o fate laws _ t' hki he
      (fun shared o' => had o shared o' (by rw [hf]; rfl)) (fun t' => hwa t' hn)
      (fun p t' => hsen p t' hn) h
    cases fate with
    | failed e => cases hs
    | empty =>
      obtain ⟨packets, hk, ha, hpa⟩ := hem _ rfl
      exact ⟨_, packets, ⟨commands, _, _, h.driver.peer.trans hp⟩, hk,
        ⟨ha.config, ha.sessions, ha.engine, ha.queued⟩, hpa⟩
    | _ =>
      obtain ⟨packets, hk, ha, hpa⟩ := hem _ rfl
      exact ⟨⟨_, _⟩, packets, ⟨commands, _, _, rfl⟩, hk,
        ⟨ha.config, ha.sessions, ha.engine, ha.queued⟩, hpa⟩

theorem sendProtected_cases {t : DatagramTransport N} (epoch : ℕ) (k : Control)
    (hk : setup.kind = .kcp) (he : l.slot.engine.isSome) :
    (∃ l' t' cipher, sendProtected setup call l t epoch .control (encodeControl k) 64 =
        (l', t', .ok ()) ∧ (link laws l.shared.config).Seals t (controlMessage k) t' cipher ∧
        Packed l.shared.config (.wrapped epoch (controlMessage k) cipher) ∧
        Queued l l' [bytesOf (.wrapped epoch (controlMessage k) cipher)]) ∨
      ∃ l' t' e, sendProtected setup call l t epoch .control (encodeControl k) 64 =
        (l', t', .error e) ∧ l'.slot.peer = l.slot.peer := by
  unfold sendProtected
  by_cases hn : t.sendNonce < u64Max
  · obtain ⟨t', cipher, hr, hs, hp, hl⟩ :=
      protectedRecord_control laws l.shared.config epoch k hn
    have hen : encodeRecord ⟨.protectedRecord, epoch, cipher⟩ (64 + 64) =
        .ok (bytesOf (.wrapped epoch (controlMessage k) cipher)) :=
      encodeRecord_eq_ok.mpr ⟨by simp only; omega, hp.2, rfl⟩
    rw [hr]
    unfold sendReliable
    simp only [hen, hk, if_true]
    rcases queueKcp_cases call (bytesOf (.wrapped epoch (controlMessage k) cipher)) true he with
      ⟨l', hqu, hq⟩ | ⟨e, her⟩
    · rw [hqu]
      exact .inl ⟨l', t', cipher, rfl, hs, hp, hq⟩
    · rw [her]
      exact .inr ⟨l, t', e, rfl, rfl⟩
  · cases hr : protectedRecord t epoch .control (encodeControl k) 64 with
    | mk t' record =>
      cases record with
      | error e => exact .inr ⟨l, t', e, rfl, rfl⟩
      | ok record =>
        obtain ⟨-, -, h, -⟩ := protectedRecord_eq_ok.mp hr
        exact absurd h hn

theorem leaves_driveServer (hh : Hosts l session side) (hki : setup.kind = .kcp)
    (he : l.slot.engine.isSome) (hs : (driveServer setup call l).slot.peer.isSome) (hsa : K side [])
    (hpr : ∀ c' k t' cipher, Proposal side.controller c' k →
      (link laws l.shared.config).Seals side.transport (controlMessage k) t' cipher →
      K ⟨c', t'⟩ [.wrapped side.controller.epoch (controlMessage k) cipher]) :
    Leaves l (driveServer setup call l) session K := by
  obtain ⟨commands, a, d, hpe⟩ := hh
  have h := drives_driveServer setup call l
  generalize driveServer setup call l = l' at h hs
  cases h with
  | rests => exact ⟨side, [], ⟨commands, a, d, hpe⟩, hsa, .refl he, nofun⟩
  | expires | drops => cases hs
  | undecided hp | unopened hp | opens hp | rejects hp => cases hpe.symm.trans hp
  | idles hp =>
    cases hpe.symm.trans hp
    exact ⟨side, [], ⟨_, _, _, rfl⟩, hsa, ⟨rfl, rfl, he, (List.append_nil _).symm⟩, nofun⟩
  | @unled _ _ _ _ _ _ _ sent queue rekey e hp _ hse =>
    change sent.1.slot.peer.isSome at hs
    rw [hse, (sameDriver_sendProtected ..).peer] at hs
    cases hs
  | @leads _ _ _ _ _ _ k sent queue rekey c' d' hp _ hse hk ho =>
    cases hpe.symm.trans hp
    subst hse
    rcases @sendProtected_cases N setup call (leading l queue rekey) laws side.transport
      side.controller.epoch k hki he with
      ⟨l₂, t', cipher, hsen, hsea, hpa, hq⟩ | ⟨l₂, t', e, hsen, -⟩ <;> rw [hsen] at ho ⊢
    · have ha : Arm (leading l queue rekey) l₂ _ := .of_queued hq
      refine ⟨⟨c', t'⟩, [.wrapped side.controller.epoch (controlMessage k) cipher], ⟨_, _, _, rfl⟩,
        hpr c' k t' cipher hk hsea, ⟨ha.config, ha.sessions, ha.engine, ha.queued⟩, fun p hp => ?_⟩
      rw [List.mem_singleton] at hp
      exact hp ▸ hpa
    · cases ho

end Sending

end Rnet.Transport.KcpEnd
