import Rnet.Core.Basic

/-! # Security records

The outer record a transport carries, the message inside a protected record, and the transition
control inside a control message. Each has an encoder and a decoder over bytes; the decoders check
shape and length and nothing else. -/

namespace Rnet.Protocol.Records

open Rnet.Core Lib.BigEndian

def magic : ℕ := 0x524e5332

def version : ℕ := 1

def headerLen : ℕ := 20

def controlLen : ℕ := 10

def protectedHeaderLen : ℕ := 5

/-- Refusal of malformed input. -/
def protocolError {α : Type} (message : String) : Result α := .error ⟨.protocolError, message⟩

/-! ### Kinds and their wire bytes -/

/-- Whether application data travels as plaintext or as a protected record. -/
inductive SecurityMode
  | plaintext | encrypted
  deriving DecidableEq

namespace SecurityMode

def toByte : SecurityMode → UInt8
  | plaintext => 1
  | encrypted => 2

/-- Mode of a code. -/
def ofByte (b : UInt8) : Result SecurityMode :=
  if b = 1 then .ok plaintext
  else if b = 2 then .ok encrypted
  else protocolError "unknown security mode"

@[simp] theorem ofByte_toByte (m : SecurityMode) : ofByte m.toByte = .ok m := by
  cases m <;> rfl

theorem toByte_of_ofByte (h : ofByte b = .ok m) : toByte m = b := by
  unfold ofByte at h
  split_ifs at h <;> cases h <;> exact Eq.symm ‹_›

end SecurityMode

/-- Kinds of security records. -/
inductive RecordKind
  | clientHello | serverHello | handshake | protectedRecord | plainData | cookieChallenge
  deriving DecidableEq

namespace RecordKind

def toByte : RecordKind → UInt8
  | clientHello => 1
  | serverHello => 2
  | handshake => 3
  | protectedRecord => 4
  | plainData => 5
  | cookieChallenge => 6

/-- Record kind of a code. -/
def ofByte (b : UInt8) : Result RecordKind :=
  if b = 1 then .ok clientHello
  else if b = 2 then .ok serverHello
  else if b = 3 then .ok handshake
  else if b = 4 then .ok protectedRecord
  else if b = 5 then .ok plainData
  else if b = 6 then .ok cookieChallenge
  else protocolError "unknown security record kind"

@[simp] theorem ofByte_toByte (k : RecordKind) : ofByte k.toByte = .ok k := by
  cases k <;> rfl

theorem toByte_of_ofByte (h : ofByte b = .ok k) : toByte k = b := by
  unfold ofByte at h
  split_ifs at h <;> cases h <;> exact Eq.symm ‹_›

end RecordKind

/-- What a protected record contains once it is authenticated and decrypted. -/
inductive ProtectedKind
  | authDecision | data | control | authAck | gameControl
  deriving DecidableEq

namespace ProtectedKind

def toByte : ProtectedKind → UInt8
  | authDecision => 1
  | data => 2
  | control => 3
  | authAck => 4
  | gameControl => 5

/-- Message kind of a code. -/
def ofByte (b : UInt8) : Result ProtectedKind :=
  if b = 1 then .ok authDecision
  else if b = 2 then .ok data
  else if b = 3 then .ok control
  else if b = 4 then .ok authAck
  else if b = 5 then .ok gameControl
  else protocolError "unknown protected message kind"

@[simp] theorem ofByte_toByte (k : ProtectedKind) : ofByte k.toByte = .ok k := by
  cases k <;> rfl

theorem toByte_of_ofByte (h : ofByte b = .ok k) : toByte k = b := by
  unfold ofByte at h
  split_ifs at h <;> cases h <;> exact Eq.symm ‹_›

end ProtectedKind

/-- Controls of the two security transitions. -/
inductive ControlKind
  | switchPropose | switchReady | switchCommit | switchAck
  | rekeyPropose | rekeyReady | rekeyCommit | rekeyAck
  deriving DecidableEq

namespace ControlKind

def toByte : ControlKind → UInt8
  | switchPropose => 1
  | switchReady => 2
  | switchCommit => 3
  | switchAck => 4
  | rekeyPropose => 5
  | rekeyReady => 6
  | rekeyCommit => 7
  | rekeyAck => 8

/-- Control of a code. -/
def ofByte (b : UInt8) : Result ControlKind :=
  if b = 1 then .ok switchPropose
  else if b = 2 then .ok switchReady
  else if b = 3 then .ok switchCommit
  else if b = 4 then .ok switchAck
  else if b = 5 then .ok rekeyPropose
  else if b = 6 then .ok rekeyReady
  else if b = 7 then .ok rekeyCommit
  else if b = 8 then .ok rekeyAck
  else protocolError "unknown security control kind"

@[simp] theorem ofByte_toByte (k : ControlKind) : ofByte k.toByte = .ok k := by
  cases k <;> rfl

theorem toByte_of_ofByte (h : ofByte b = .ok k) : toByte k = b := by
  unfold ofByte at h
  split_ifs at h <;> cases h <;> exact Eq.symm ‹_›

end ControlKind

/-! ### Records -/

/-- A security record. -/
structure Record where
  kind : RecordKind
  epoch : ℕ
  payload : Bytes
  deriving DecidableEq

/-- What a protected record carries once it is opened. -/
structure ProtectedMessage where
  kind : ProtectedKind
  payload : Bytes
  deriving DecidableEq

/-- A transition barrier with its target epoch and, for a proposal, its target mode. -/
structure Control where
  kind : ControlKind
  epoch : ℕ
  mode : Option SecurityMode
  deriving DecidableEq

/-- Control that names a mode. -/
def Control.switch (kind : ControlKind) (epoch : ℕ) (mode : SecurityMode) : Control :=
  ⟨kind, epoch, some mode⟩

/-- Control that names only an epoch. -/
def Control.barrier (kind : ControlKind) (epoch : ℕ) : Control := ⟨kind, epoch, none⟩

/-- Payload limit of a record. -/
def validatePayloadLen (payloadLen maxPayloadLen : ℕ) : Result Unit :=
  if maxPayloadLen < payloadLen ∨ u32Max < payloadLen then
    .error ⟨.messageTooLarge, "security record payload exceeds configured limit"⟩
  else .ok ()

def protectedBytes (message : ProtectedMessage) : Bytes :=
  message.kind.toByte :: (toBytes 4 message.payload.length ++ message.payload)

/-- `encode_protected`. The separate `u32` conversion cannot fail after the length check. -/
def encodeProtected (message : ProtectedMessage) (maxPayloadLen : ℕ) : Result Bytes :=
  match validatePayloadLen message.payload.length maxPayloadLen with
  | .error e => .error e
  | .ok () => .ok (protectedBytes message)

/-- Reads a protected message. -/
def decodeProtected (input : Bytes) (maxPayloadLen : ℕ) : Result ProtectedMessage :=
  if input.length < protectedHeaderLen then protocolError "truncated protected message header"
  else
    match ProtectedKind.ofByte (input.headD 0) with
    | .error e => .error e
    | .ok kind =>
      match validatePayloadLen (field input 1 4) maxPayloadLen with
      | .error e => .error e
      | .ok () =>
        if input.length ≠ protectedHeaderLen + field input 1 4 then
          protocolError "protected message length does not match its payload"
        else .ok ⟨kind, input.drop protectedHeaderLen⟩

def recordBytes (record : Record) : Bytes :=
  toBytes 4 magic ++ (toBytes 2 version ++ (record.kind.toByte :: 0 ::
    (toBytes 8 record.epoch ++ (toBytes 4 record.payload.length ++ record.payload))))

/-- Encodes a record within the payload limit. -/
def encodeRecord (record : Record) (maxPayloadLen : ℕ) : Result Bytes :=
  match validatePayloadLen record.payload.length maxPayloadLen with
  | .error e => .error e
  | .ok () => .ok (recordBytes record)

/-- Reads a record. -/
def decodeRecord (input : Bytes) (maxPayloadLen : ℕ) : Result Record :=
  if input.length < headerLen then protocolError "truncated security record header"
  else if field input 0 4 ≠ magic ∨ field input 4 2 ≠ version ∨ (input.drop 7).headD 0 ≠ 0 then
    protocolError "invalid security record header"
  else
    match RecordKind.ofByte ((input.drop 6).headD 0) with
    | .error e => .error e
    | .ok kind =>
      match validatePayloadLen (field input 16 4) maxPayloadLen with
      | .error e => .error e
      | .ok () =>
        if input.length ≠ headerLen + field input 16 4 then
          protocolError "security record length does not match its payload"
        else .ok ⟨kind, field input 8 8, input.drop headerLen⟩

/-- Kind, mode and epoch of a control. -/
def encodeControl (control : Control) : Bytes :=
  control.kind.toByte :: ((control.mode.map SecurityMode.toByte).getD 0) :: toBytes 8 control.epoch

/-- Reads a control. -/
def decodeControl (input : Bytes) : Result Control :=
  if input.length ≠ controlLen then protocolError "invalid security control length"
  else
    match ControlKind.ofByte (input.headD 0) with
    | .error e => .error e
    | .ok kind =>
      if field input 2 8 = 0 then protocolError "security transition epoch must be nonzero"
      else if kind = .switchPropose then
        match SecurityMode.ofByte ((input.drop 1).headD 0) with
        | .error e => .error e
        | .ok mode => .ok ⟨kind, field input 2 8, some mode⟩
      else if (input.drop 1).headD 0 = 0 then .ok ⟨kind, field input 2 8, none⟩
      else protocolError "unexpected mode in security transition barrier"

/-! ### Limits -/

variable {m : ℕ}

theorem validatePayloadLen_eq_ok : validatePayloadLen n m = .ok () ↔ n ≤ m ∧ n ≤ u32Max := by
  unfold validatePayloadLen
  split_ifs with h
  · simp only [false_iff]; omega
  · simp only [true_iff]; omega

variable {msg : ProtectedMessage}

theorem encodeProtected_eq_ok :
    encodeProtected msg m = .ok out ↔ msg.payload.length ≤ m ∧ msg.payload.length ≤ u32Max ∧ out =
      protectedBytes msg := by
  rw [← and_assoc, ← validatePayloadLen_eq_ok]
  unfold encodeProtected
  split <;> rename_i h <;> simp [h, eq_comm]

theorem encodeRecord_eq_ok {r : Record} {m : ℕ} {out : Bytes} :
    encodeRecord r m = .ok out ↔
      r.payload.length ≤ m ∧ r.payload.length ≤ u32Max ∧ out = recordBytes r := by
  rw [← and_assoc, ← validatePayloadLen_eq_ok]
  unfold encodeRecord
  split <;> rename_i h <;> simp [h, eq_comm]

@[simp] theorem length_protectedBytes (msg : ProtectedMessage) :
    (protectedBytes msg).length = protectedHeaderLen + msg.payload.length := by
  simp [protectedBytes, protectedHeaderLen]; omega

@[simp] theorem length_recordBytes (r : Record) :
    (recordBytes r).length = headerLen + r.payload.length := by
  simp [recordBytes, headerLen]; omega

@[simp] theorem length_encodeControl (c : Control) : (encodeControl c).length = controlLen := by
  simp [encodeControl, controlLen]

/-! ### Round trips -/

/-- **Protected messages round trip** through any limit that admits the payload. -/
theorem decodeProtected_protectedBytes (hm : msg.payload.length ≤ m)
    (hu : msg.payload.length ≤ u32Max) :
    decodeProtected (protectedBytes msg) m = .ok msg := by
  have hf : field (protectedBytes msg) 1 4 = msg.payload.length := by
    have hl : msg.payload.length < 256 ^ 4 := by unfold u32Max at hu; omega
    exact field_toBytes_append _ hl
  have hd : (protectedBytes msg).drop protectedHeaderLen = msg.payload :=
    List.drop_left' (length_toBytes 4 msg.payload.length)
  unfold decodeProtected
  rw [hf, hd, length_protectedBytes, if_neg (by omega),
    validatePayloadLen_eq_ok.mpr ⟨hm, hu⟩]
  simp [protectedBytes]

theorem bytes_of_decodeProtected (h : decodeProtected input m = .ok msg) :
    protectedBytes msg = input ∧ msg.payload.length ≤ m ∧ msg.payload.length ≤ u32Max := by
  unfold decodeProtected at h
  split at h
  · cases h
  rename_i hl
  split at h
  · cases h
  rename_i kind hk
  split at h
  · cases h
  rename_i hv
  split at h
  · cases h
  rename_i hn
  cases h
  unfold protectedHeaderLen at *
  have hp : (input.drop 5).length = field input 1 4 := by simp; omega
  refine ⟨?_, hp ▸ validatePayloadLen_eq_ok.mp hv⟩
  have hb := drop_eq_headD (i := 0) input (by omega)
  rw [List.drop_zero, drop_eq_field (w := 4) _ (by omega)] at hb
  rw [protectedBytes, hp, ProtectedKind.toByte_of_ofByte hk]
  exact hb.symm

theorem eq_of_decodeProtected (hu : msg.payload.length ≤ u32Max)
    (h : decodeProtected (protectedBytes msg) m = .ok msg') : msg' = msg := by
  obtain ⟨hb, -, hu'⟩ := bytes_of_decodeProtected h
  have hd := decodeProtected_protectedBytes le_rfl hu'
  have hl := congrArg List.length hb
  simp only [length_protectedBytes] at hl
  rw [hb, decodeProtected_protectedBytes (by omega) hu] at hd
  exact (Except.ok.inj hd).symm

theorem field_recordBytes (r : Record) (he : r.epoch ≤ u64Max) (hu : r.payload.length ≤ u32Max) :
    field (recordBytes r) 0 4 = magic ∧ field (recordBytes r) 4 2 = version ∧
    field (recordBytes r) 8 8 = r.epoch ∧ field (recordBytes r) 16 4 = r.payload.length := by
  have hl : r.payload.length < 256 ^ 4 := by unfold u32Max at hu; omega
  have hep : r.epoch < 256 ^ 8 := by unfold u64Max at he; omega
  simp (disch := omega) [recordBytes, magic, version, field_skip, field_cons, field_toBytes_append]

theorem drop_recordBytes (r : Record) : (recordBytes r).drop headerLen = r.payload := by
  have hs : recordBytes r = (toBytes 4 magic ++ toBytes 2 version ++ [r.kind.toByte, 0] ++
      toBytes 8 r.epoch ++ toBytes 4 r.payload.length) ++ r.payload := by
    simp [recordBytes]
  rw [hs]
  exact List.drop_left' (by simp [headerLen])

/-- **Records round trip** through any limit that admits the payload. -/
theorem decodeRecord_recordBytes {r : Record} {m : ℕ} (he : r.epoch ≤ u64Max)
    (hm : r.payload.length ≤ m) (hu : r.payload.length ≤ u32Max) :
    decodeRecord (recordBytes r) m = .ok r := by
  obtain ⟨h0, h4, h8, h16⟩ := field_recordBytes r he hu
  have h6 : ((recordBytes r).drop 6).headD 0 = r.kind.toByte := rfl
  have h7 : ((recordBytes r).drop 7).headD 0 = 0 := rfl
  unfold decodeRecord
  rw [h0, h4, h6, h7, h8, h16, drop_recordBytes, length_recordBytes, if_neg (by omega),
    if_neg (by simp), RecordKind.ofByte_toByte, validatePayloadLen_eq_ok.mpr ⟨hm, hu⟩]
  simp

theorem bytes_of_decodeRecord (h : decodeRecord input m = .ok r) :
    recordBytes r = input ∧ r.epoch ≤ u64Max ∧ r.payload.length ≤ m ∧
      r.payload.length ≤ u32Max := by
  unfold decodeRecord at h
  split at h
  · cases h
  rename_i hl
  split at h
  · cases h
  rename_i hh
  simp only [not_or, not_not] at hh
  split at h
  · cases h
  rename_i kind hk
  split at h
  · cases h
  rename_i hv
  split at h
  · cases h
  rename_i hn
  cases h
  unfold headerLen at *
  have hp : (input.drop 20).length = field input 16 4 := by simp; omega
  have he : field input 8 8 ≤ u64Max := Nat.le_of_lt_succ (field_lt input 8 8)
  have h7 := drop_eq_headD (i := 7) input (by omega)
  rw [hh.2.2] at h7
  refine ⟨?_, he, hp ▸ validatePayloadLen_eq_ok.mp hv⟩
  rw [recordBytes, hp, RecordKind.toByte_of_ofByte hk, ← drop_eq_field _ (by omega),
    ← drop_eq_field _ (by omega), ← h7, ← drop_eq_headD _ (by omega), ← hh.2.1,
    ← drop_eq_field _ (by omega), ← hh.1, ← drop_eq_field _ (by omega), List.drop_zero]

theorem kind_of_decodeRecord (h : decodeRecord input m = .ok r) :
    RecordKind.ofByte ((input.drop 6).headD 0) = .ok r.kind := by
  rw [← (bytes_of_decodeRecord h).1]
  exact RecordKind.ofByte_toByte r.kind

theorem eq_of_decodeRecord (he : r.epoch ≤ u64Max) (hu : r.payload.length ≤ u32Max)
    (h : decodeRecord (recordBytes r) m = .ok r') : r' = r := by
  obtain ⟨hb, he', -, hu'⟩ := bytes_of_decodeRecord h
  have hd := decodeRecord_recordBytes he' le_rfl hu'
  have hl := congrArg List.length hb
  simp only [length_recordBytes] at hl
  rw [hb, decodeRecord_recordBytes he (by omega) hu] at hd
  exact (Except.ok.inj hd).symm

/-- A control that a controller can send: a nonzero epoch, and a mode exactly on a proposal. -/
structure Control.WellFormed (c : Control) : Prop where
  epoch_pos : 0 < c.epoch
  epoch_le : c.epoch ≤ u64Max
  mode_iff : c.mode.isSome ↔ c.kind = .switchPropose

/-- **Controls round trip** when they are well formed. -/
theorem decodeControl_encodeControl (h : c.WellFormed) :
    decodeControl (encodeControl c) = .ok c := by
  have he : field (encodeControl c) 2 8 = c.epoch := by
    have hl : c.epoch < 256 ^ 8 := by have := h.epoch_le; unfold u64Max at this; omega
    simp [encodeControl, field_cons, field_toBytes hl]
  have h1 : ((encodeControl c).drop 1).headD 0 = (c.mode.map SecurityMode.toByte).getD 0 := rfl
  have h0 : (encodeControl c).headD 0 = c.kind.toByte := rfl
  unfold decodeControl
  rw [h0, h1, he, length_encodeControl, if_neg (by simp), ControlKind.ofByte_toByte]
  have hp : c.epoch ≠ 0 := Nat.pos_iff_ne_zero.mp h.epoch_pos
  obtain ⟨kind, epoch, mode⟩ := c
  rcases mode with _ | mode
  · have hk : kind ≠ .switchPropose := by simpa using h.mode_iff
    simp [hp, hk]
  · have hk : kind = .switchPropose := by simpa using h.mode_iff
    simp [hp, hk]

theorem bytes_of_decodeControl (h : decodeControl input = .ok c) :
    encodeControl c = input ∧ c.WellFormed := by
  unfold decodeControl protocolError at h
  split at h
  · cases h
  rename_i hl
  rw [not_not, controlLen] at hl
  split at h
  · cases h
  rename_i kind hk
  have hi : input = input.headD 0 :: (input.drop 1).headD 0 :: toBytes 8 (field input 2 8) := by
    have hd := drop_eq_field (i := 2) (w := 8) input (by omega)
    rw [List.drop_of_length_le hl.le, List.append_nil] at hd
    rw [← hd, ← drop_eq_headD _ (by omega)]
    exact drop_eq_headD (i := 0) input (by omega)
  have he : field input 2 8 ≤ u64Max := Nat.le_of_lt_succ (field_lt input 2 8)
  have ht := ControlKind.toByte_of_ofByte hk
  split_ifs at h with hz hs hn
  · split at h
    · cases h
    rename_i mode hm
    cases h
    refine ⟨?_, Nat.pos_of_ne_zero hz, he, by simp [hs]⟩
    conv_rhs => rw [hi]
    rw [encodeControl, ht, Option.map_some, Option.getD_some, SecurityMode.toByte_of_ofByte hm]
  · cases h
    refine ⟨?_, Nat.pos_of_ne_zero hz, he, by simp [hs]⟩
    conv_rhs => rw [hi]
    rw [encodeControl, ht, hn]
    rfl

/-! ### Canonical codecs -/

/-- **The security codecs are canonical** under every limit. A record is valid when its epoch is an
`u64`, a control when it is well formed; a protected message always is. Records and protected messages
fit when the limit and the length field admit their payload, controls always. -/
theorem security_codecs_canonical (m : ℕ) :
    Canonical (fun r : Record => r.epoch ≤ u64Max)
        (fun r => r.payload.length ≤ m ∧ r.payload.length ≤ u32Max)
        (encodeRecord · m) (decodeRecord · m) ∧
      Canonical (fun _ : ProtectedMessage => True)
        (fun msg => msg.payload.length ≤ m ∧ msg.payload.length ≤ u32Max)
        (encodeProtected · m) (decodeProtected · m) ∧
      Canonical Control.WellFormed (fun _ => True)
        (fun c => .ok (encodeControl c)) decodeControl := by
  refine ⟨.of_iff (fun r => ?_) fun b r => ?_, .of_iff (fun msg => ?_) fun b msg => ?_,
    .of_iff (fun c => ⟨fun _ => trivial, fun _ => ⟨_, rfl⟩⟩) fun b c => ?_⟩
  · constructor
    · rintro ⟨b, hb⟩
      obtain ⟨hm, hu, -⟩ := encodeRecord_eq_ok.mp hb
      exact ⟨hm, hu⟩
    · rintro ⟨hm, hu⟩
      exact ⟨_, encodeRecord_eq_ok.mpr ⟨hm, hu, rfl⟩⟩
  · rw [encodeRecord_eq_ok]
    constructor
    · intro h
      obtain ⟨hb, he, hm, hu⟩ := bytes_of_decodeRecord h
      exact ⟨he, hm, hu, hb.symm⟩
    · rintro ⟨he, hm, hu, rfl⟩
      exact decodeRecord_recordBytes he hm hu
  · constructor
    · rintro ⟨b, hb⟩
      obtain ⟨hm, hu, -⟩ := encodeProtected_eq_ok.mp hb
      exact ⟨hm, hu⟩
    · rintro ⟨hm, hu⟩
      exact ⟨_, encodeProtected_eq_ok.mpr ⟨hm, hu, rfl⟩⟩
  · rw [encodeProtected_eq_ok]
    constructor
    · intro h
      obtain ⟨hb, hm, hu⟩ := bytes_of_decodeProtected h
      exact ⟨trivial, hm, hu, hb.symm⟩
    · rintro ⟨-, hm, hu, rfl⟩
      exact decodeProtected_protectedBytes hm hu
  · constructor
    · intro h
      obtain ⟨hb, hc⟩ := bytes_of_decodeControl h
      exact ⟨hc, congrArg Except.ok hb⟩
    · rintro ⟨hc, h⟩
      cases h
      exact decodeControl_encodeControl hc

end Rnet.Protocol.Records
