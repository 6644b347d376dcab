import Rnet.Transport.Session

/-! # Established TCP sessions

The record stream of a TCP session and the branches of its loop: a record completed by the reader, a
message from the session's queue, a security command, an automatic rekey. A branch that fails ends
the loop, so every function returns the session as it stands together with the result. Writes to
the stream are collected in `written`; a stream that stops taking bytes is `streamOk = false`. -/

namespace Rnet.Transport.TcpSession

open Rnet.Core Lib.BigEndian Protocol Protocol.Framing Security.Cipher
open Protocol.Records (Record RecordKind ProtectedKind ProtectedMessage Control ControlKind
  SecurityMode encodeRecord decodeRecord encodeProtected decodeProtected encodeControl
  decodeControl)
open Security.Controller Config State
open Slots (AutoRekey)
open Session (SecurityOperation completedOperation securityChangedEvent messageEvent
  gameControlEvent)

variable {N : Noise}

def maxPayload (c : RuntimeConfig) : ℕ := c.maxBodyLen + headerLen + 64

/-! ### The record stream -/

/-- `RecordReader::take`: the bytes that stay buffered, and a complete record if there is one. -/
def takeRecord (maxLen : ℕ) (buffered : Bytes) : Bytes × Result (Option Bytes) :=
  if buffered.length < 4 then (buffered, .ok none)
  else
    let length := field buffered 0 4
    if length = 0 then (buffered, .error ⟨.protocolError, "empty TCP record"⟩)
    else if maxLen < length then
      (buffered, .error ⟨.messageTooLarge, "TCP record exceeds the configured limit"⟩)
    else if buffered.length < length + 4 then (buffered, .ok none)
    else ((buffered.drop 4).drop length, .ok (some ((buffered.drop 4).take length)))

def framed (encoded : Bytes) : Bytes := toBytes 4 encoded.length ++ encoded

/-- `write_wire`, up to the stream. -/
def writeWire (record : Record) (max : ℕ) : Result Bytes :=
  match encodeRecord record max with
  | .error e => .error e
  | .ok encoded =>
    if u32Max < encoded.length then .error ⟨.messageTooLarge, "record is too large"⟩
    else .ok (framed encoded)

/-- `write_protected`, up to the stream. -/
def writeProtected (t : SecureTransport N) (epoch : ℕ) (kind : ProtectedKind) (payload : Bytes)
    (max : ℕ) : SecureTransport N × Result Bytes :=
  match encodeProtected ⟨kind, payload⟩ max with
  | .error e => (t, .error e)
  | .ok inner =>
    match t.encrypt inner with
    | (t, .error e) => (t, .error (mapSecurityError e))
    | (t, .ok cipher) => (t, writeWire ⟨.protectedRecord, epoch, cipher⟩ (max + 64))

def writeOutbound (t : SecureTransport N) (c : SecurityController) (kind : OutboundKind)
    (bytes : Bytes) (max : ℕ) : SecureTransport N × Result Bytes :=
  match kind, c.mode with
  | .gameControl, _ => writeProtected t c.epoch .gameControl bytes max
  | .data, .encrypted => writeProtected t c.epoch .data bytes max
  | .data, .plaintext => (t, writeWire ⟨.plainData, c.epoch, bytes⟩ max)

/-- Opens a protected record. -/
def decryptProtected (t : SecureTransport N) (record : Record) (max : ℕ) :
    SecureTransport N × Result ProtectedMessage :=
  if record.kind ≠ .protectedRecord then
    (t, .error ⟨.protocolError, "expected protected record"⟩)
  else
    match t.decrypt record.payload with
    | (t, .error e) => (t, .error (mapSecurityError e))
    | (t, .ok plain) => (t, decodeProtected plain max)

/-! ### The session loop -/

/-- State of a session loop. -/
structure TcpState (N : Noise) where
  endpoint : Handle
  session : Handle
  transport : SecureTransport N
  controller : SecurityController
  commands : Bool
  rekey : AutoRekey
  deadline : Option Instant
  shared : Shared
  written : List Bytes

/-- What the environment decides in one turn of the loop: the clock, whether the stream takes bytes
and what the system says if it does not, and whether the event queue has room. -/
structure Turn where
  now : Instant
  streamOk : Bool
  streamError : String
  eventRoom : Bool

section Loop

variable (turn : Turn) (s : TcpState N)

/-- `RnetError::from` of the stream's error. -/
def streamFailure : RnetError := ⟨.ioError, turn.streamError⟩

/-- `push_tcp_event`: it waits for room in the queue unless the session is gone or the runtime
stops. -/
def pushTcpEvent (s : Shared) (event : Event) : Shared :=
  if (event.eventType = .message ∨ event.eventType = .writable ∨ event.eventType = .gameControl) ∧
      !s.sessionActive event.session then s
  else if turn.eventRoom then s.publish event
  else s

/-- Puts the bytes of a record on the stream. -/
def writeStream : SecureTransport N × Result Bytes → TcpState N × Result Unit
  | (t, .error e) => ({ s with transport := t }, .error e)
  | (t, .ok bytes) =>
    if turn.streamOk then
      ({ s with transport := t, written := s.written ++ [bytes] }, .ok ())
    else ({ s with transport := t }, .error (streamFailure turn))

/-- Writes a control. -/
def writeControl (epoch : ℕ) (control : Control) : TcpState N × Result Unit :=
  writeStream turn s (writeProtected s.transport epoch .control (encodeControl control)
    (maxPayload s.shared.config))

def respond (epoch : ℕ) : Option Control → TcpState N × Result Unit
  | none => (s, .ok ())
  | some response => writeControl turn s epoch response

/-- A rekey changes both keys. -/
def applyEffect (t : SecureTransport N) (effect : Effect) : SecureTransport N :=
  if effect = .rekey then t.rekeyIncoming.rekeyOutgoing else t

def fail (message : String) : TcpState N × Result Unit :=
  (s, .error ⟨.protocolError, message⟩)

/-- The end of the control arm: a completed transition is published. -/
def finishControl (kind : ControlKind) : TcpState N × Result Unit :=
  match s.controller.isTransitioning, completedOperation kind with
  | false, some operation =>
    ({ s with shared := pushTcpEvent turn s.shared (securityChangedEvent s.endpoint s.session
      operation s.controller.mode s.controller.epoch) }, .ok ())
  | _, _ => (s, .ok ())

def handleControl (epoch : ℕ) (payload : Bytes) : TcpState N × Result Unit :=
  match decodeControl payload with
  | .error e => (s, .error e)
  | .ok control =>
    match s.controller.handle control with
    | (c, .error e) => ({ s with controller := c }, .error e)
    | (c, .ok transition) =>
      let s := { s with
        controller := c
        transport := applyEffect s.transport transition.beforeResponse }
      match respond turn s epoch transition.response with
      | (s, .error e) => (s, .error e)
      | (s, .ok ()) =>
        finishControl turn
          { s with transport := applyEffect s.transport transition.afterResponse } control.kind

def openRecord (record : Record) : SecureTransport N × Result ProtectedMessage :=
  match record.kind, s.controller.mode with
  | .plainData, .plaintext => (s.transport, .ok ⟨.data, record.payload⟩)
  | .protectedRecord, _ => decryptProtected s.transport record (maxPayload s.shared.config)
  | _, _ => (s.transport, .error ⟨.protocolError, "record mode mismatch"⟩)

def dispatch (record : Record) (message : ProtectedMessage) : TcpState N × Result Unit :=
  match message.kind with
  | .data =>
    if record.kind = .protectedRecord ∧ s.controller.mode ≠ .encrypted then
      fail s "encrypted data in plaintext mode"
    else
      match decodeDatagram message.payload s.shared.config.maxBodyLen with
      | .error e => (s, .error e)
      | .ok frame =>
        ({ s with shared := pushTcpEvent turn s.shared (messageEvent s.endpoint s.session frame
          (record.kind = .protectedRecord)) }, .ok ())
  | .gameControl =>
    if record.kind = .protectedRecord then
      if s.shared.config.maxBodyLen < message.payload.length then
        (s, .error ⟨.messageTooLarge, "game control exceeds the configured body limit"⟩)
      else
        ({ s with shared := pushTcpEvent turn s.shared (gameControlEvent s.endpoint s.session
          message.payload) }, .ok ())
    else fail s "game controls must be authenticated"
  | .control => handleControl turn s record.epoch message.payload
  | .authDecision => fail s "unexpected auth decision"
  | .authAck => fail s "unexpected auth decision"

/-- A record of the other side. -/
def processInbound (record : Record) : TcpState N × Result Unit :=
  if !s.shared.sessionActive s.session || record.epoch ≠ s.controller.epoch then
    fail s "invalid security epoch"
  else
    match openRecord s record with
    | (t, .error e) => ({ s with transport := t }, .error e)
    | (t, .ok message) => dispatch turn { s with transport := t } record message

def receive (encoded : Bytes) : TcpState N × Result Unit :=
  match decodeRecord encoded (maxPayload s.shared.config + 64) with
  | .error e => (s, .error e)
  | .ok record =>
    match processInbound turn s record with
    | (s, .error e) => (s, .error e)
    | (s, .ok ()) =>
      ({ s with deadline := if s.controller.isTransitioning then s.deadline else none }, .ok ())

/-- The outbound branch; it is disabled during a transition. -/
def takeOutbound (o : Outbound) : TcpState N × Result Unit :=
  match s.shared.resolveLatest o with
  | (shared, none) => ({ s with shared := shared }, .ok ())
  | (shared, some o) =>
    let s := { s with shared := shared }
    if !s.shared.sessionActive s.session then
      (s, .error ⟨.cancelled, "session no longer active"⟩)
    else
      match writeStream turn s (writeOutbound s.transport s.controller o.kind o.bytes
        (maxPayload s.shared.config)) with
      | (s, .error e) => (s, .error e)
      | (s, .ok ()) =>
        ({ s with rekey :=
          if s.controller.mode = .encrypted ∨ o.kind = .gameControl then
            s.rekey.recordEncryptedBytes o.bytes.length
          else s.rekey }, .ok ())

/-- What the command and automatic-rekey branches do with a proposal: a refused one is skipped. -/
def propose : SecurityController × Result Control → TcpState N × Result Unit
  | (c, .error _) => ({ s with controller := c }, .ok ())
  | (c, .ok control) =>
    match writeControl turn { s with controller := c } c.epoch control with
    | (s, .error e) => (s, .error ⟨.ioError, e.message⟩)
    | (s, .ok ()) =>
      ({ s with deadline := some (turn.now + s.shared.config.handshakeTimeout) }, .ok ())

/-- The command branch; it is disabled during a transition. -/
def takeCommand : SecurityCommand → TcpState N × Result Unit
  | .setMode mode => propose turn s (s.controller.beginSwitch mode)
  | .rekey => propose turn { s with rekey := s.rekey.markStarted turn.now } s.controller.beginRekey

def autoRekey : TcpState N × Result Unit :=
  if s.commands && s.controller.mode = .encrypted && !s.controller.isTransitioning &&
      s.rekey.isDue turn.now then
    match s.controller.beginRekey with
    | (c, .error _) => ({ s with controller := c }, .ok ())
    | (c, .ok control) =>
      propose turn { s with rekey := s.rekey.markStarted turn.now } (c, .ok control)
  else (s, .ok ())

end Loop

variable {record : Record} {t : SecureTransport N}

theorem processInbound_of_open
    (ha : s.shared.sessionActive s.session = true) (he : record.epoch = s.controller.epoch)
    (ho : openRecord s record = (t, .ok message)) :
    processInbound turn s record = dispatch turn { s with transport := t } record message := by
  unfold processInbound
  rw [ha, ho]
  simp [he]

theorem dispatch_of_frame {turn : Turn} {s : TcpState N} {record : Record} {data : Bytes}
    {frame : Frame} (hm : record.kind = .protectedRecord → s.controller.mode = .encrypted)
    (hf : decodeDatagram data s.shared.config.maxBodyLen = .ok frame) :
    dispatch turn s record ⟨.data, data⟩ = ({ s with
      shared := pushTcpEvent turn s.shared (messageEvent s.endpoint s.session frame
        (record.kind = .protectedRecord)) }, .ok ()) := by
  have hk : ¬ (record.kind = .protectedRecord ∧ s.controller.mode ≠ .encrypted) :=
    fun h => h.2 (hm h.1)
  unfold dispatch
  rw [if_neg hk, hf]

theorem dispatch_of_gameControl
    (hk : record.kind = .protectedRecord) (hl : data.length ≤ s.shared.config.maxBodyLen) :
    dispatch turn s record ⟨.gameControl, data⟩ = ({ s with
      shared := pushTcpEvent turn s.shared (gameControlEvent s.endpoint s.session data) },
      .ok ()) := by
  unfold dispatch
  rw [if_pos hk, if_neg (not_lt.mpr hl)]

/-! ### Specifications of the stream -/

theorem takeRecord_framed (hp : encoded ≠ []) (hm : encoded.length ≤ maxLen)
    (hu : encoded.length ≤ u32Max) :
    takeRecord maxLen (framed encoded ++ rest) = (rest, .ok (some encoded)) := by
  have hf : field (framed encoded ++ rest) 0 4 = encoded.length := by
    rw [framed, List.append_assoc]
    exact field_toBytes_append _ (by unfold u32Max at hu; omega)
  have hd : (framed encoded ++ rest).drop 4 = encoded ++ rest := by
    rw [framed, List.append_assoc]
    exact List.drop_left' (length_toBytes 4 _)
  have hl : (framed encoded ++ rest).length = 4 + encoded.length + rest.length := by
    simp [framed, Nat.add_assoc]
  have hn : encoded.length ≠ 0 := fun h => hp (List.length_eq_zero_iff.mp h)
  unfold takeRecord
  rw [hf, hd, hl, if_neg (by omega)]
  simp only [hn, if_false, not_lt.mpr hm]
  rw [if_neg (by omega), List.drop_left, List.take_left]

variable {max : ℕ}

theorem writeWire_eq_ok :
    writeWire record max = .ok wire ↔ record.payload.length ≤ max ∧
      Records.headerLen + record.payload.length ≤ u32Max ∧ wire =
      framed (Records.recordBytes record) := by
  unfold writeWire
  split <;> rename_i hr
  · simp only [reduceCtorEq, false_iff]
    rintro ⟨hm, hu, -⟩
    have ho := (@Records.encodeRecord_eq_ok record max _).mpr ⟨hm, by omega, rfl⟩
    rw [hr] at ho
    cases ho
  · obtain ⟨hm, hu, rfl⟩ := Records.encodeRecord_eq_ok.mp hr
    rw [Records.length_recordBytes]
    split_ifs with hl
    · simp only [false_iff]; omega
    · simp only [Except.ok.injEq, hm, true_and, eq_comm, not_lt.mp hl]

variable {epoch : ℕ}

theorem writeProtected_eq_ok :
    writeProtected t epoch kind payload max = (t', .ok wire) ↔
      payload.length ≤ max ∧ payload.length ≤ u32Max ∧ t.sendNonce < u64Max ∧
        t' = { t with sendNonce := t.sendNonce + 1 } ∧
        ∃ cipher, N.write t.outKey t.sendNonce (Records.protectedBytes ⟨kind, payload⟩) =
            some cipher ∧
          writeWire ⟨.protectedRecord, epoch, cipher⟩ (max + 64) = .ok wire := by
  unfold writeProtected
  constructor
  · intro h
    split at h
    · cases h
    rename_i inner hi
    obtain ⟨hm, hu, rfl⟩ := Records.encodeProtected_eq_ok.mp hi
    split at h
    · cases h
    rename_i t₁ cipher he
    obtain ⟨hn, hwr, rfl⟩ := SecureTransport.encrypt_eq_ok.mp he
    obtain ⟨rfl, hwi⟩ := Prod.mk.inj h
    exact ⟨hm, hu, hn, rfl, cipher, hwr, hwi⟩
  · rintro ⟨hm, hu, hn, rfl, cipher, hwr, hwi⟩
    rw [Records.encodeProtected_eq_ok.mpr ⟨hm, hu, rfl⟩]
    simp only
    rw [SecureTransport.encrypt_eq_ok.mpr ⟨hn, hwr, rfl⟩]
    simp only [hwi]

theorem writeProtected_of_too_long (laws : N.CipherLaws) (hm : payload.length ≤ max)
    (hu : payload.length ≤ u32Max)
    (hl : maxMessageLen < Records.protectedHeaderLen + payload.length + tagLen) :
    writeProtected t epoch kind payload max = (t, .error (mapSecurityError .crypto)) := by
  have hn : N.write t.outKey t.sendNonce (Records.protectedBytes ⟨kind, payload⟩) = none := by
    rw [← Option.not_isSome_iff_eq_none, laws.write_isSome, Records.length_protectedBytes]
    exact not_le.mpr hl
  unfold writeProtected
  rw [Records.encodeProtected_eq_ok.mpr ⟨hm, hu, rfl⟩]
  dsimp only
  unfold SecureTransport.encrypt
  rw [hn]
  split_ifs <;> rfl

theorem decryptProtected_eq_ok (laws : N.CipherLaws)
    (hwr : N.write key nonce (Records.protectedBytes msg) = some cipher) (hk : r.inKey = key)
    (hn : r.receiveNonce = nonce) (hl : nonce < u64Max) (hm : msg.payload.length ≤ max)
    (hu : msg.payload.length ≤ u32Max) :
    decryptProtected r ⟨.protectedRecord, epoch, cipher⟩ max =
      ({ r with receiveNonce := r.receiveNonce + 1 }, .ok msg) := by
  unfold decryptProtected
  rw [if_neg (by simp)]
  have hr : N.read r.inKey r.receiveNonce cipher = some (Records.protectedBytes msg) := by
    rw [hk, hn]
    exact laws.read_write hwr
  simp only [SecureTransport.decrypt_eq_ok.mpr ⟨hn ▸ hl, hr, rfl⟩,
    Records.decodeProtected_protectedBytes hm hu]

end Rnet.Transport.TcpSession
