import Rnet.Protocol.Framing
import Rnet.Transport.Codec
import Rnet.Transport.Wire

/-! # Receive path of an established datagram session

`handleEstablished` authenticates one record under the session's transport and dispatches on what it
contains. It mutates the transport and the controller as it goes and can fail in between, so every
part returns the state it leaves behind next to its result (`Outcome`). -/

namespace Rnet.Transport.Session

open Rnet.Core Lib.BigEndian Protocol.Framing Protocol.Records Security.Cipher Security.Controller
open Config
open State Slots Codec Wire

variable {N : Noise}

section

variable (setup : Setup N) (call : Call N) (l : Local N) (session : Handle)
  (t : DatagramTransport N) (c : SecurityController)

/-- What handling a record leaves. -/
structure Outcome (N : Noise) where
  loc : Local N
  transport : DatagramTransport N
  controller : SecurityController
  result : Result Unit

/-- Seals an answer that is cached. -/
def sendProtectedResponse (epoch : ℕ) (kind : ProtectedKind) (data : Bytes) (max : ℕ) :
    Local N × DatagramTransport N × Result Unit :=
  match protectedRecord t epoch kind data max with
  | (t, .error e) => (l, t, .error e)
  | (t, .ok record) =>
    ((sendResponse setup call l record (max + 64)).1, t,
      (sendResponse setup call l record (max + 64)).2)

/-- Seals a control that is repeated until it is answered. -/
def sendProtected (epoch : ℕ) (kind : ProtectedKind) (data : Bytes) (max : ℕ) :
    Local N × DatagramTransport N × Result Unit :=
  match protectedRecord t epoch kind data max with
  | (t, .error e) => (l, t, .error e)
  | (t, .ok record) =>
    ((sendReliable setup call l record (max + 64)).1, t,
      (sendReliable setup call l record (max + 64)).2)

/-- The operation a control completes, on the side that receives it. -/
inductive SecurityOperation
  | modeSwitch | rekey
  deriving DecidableEq

def SecurityOperation.toByte : SecurityOperation → UInt8
  | modeSwitch => 1
  | rekey => 2

/-- Operation a control completes. -/
def completedOperation : ControlKind → Option SecurityOperation
  | .switchCommit => some .modeSwitch
  | .switchAck => some .modeSwitch
  | .rekeyCommit => some .rekey
  | .rekeyAck => some .rekey
  | _ => none

/-- Event of a completed transition. -/
def securityChangedEvent (endpoint session : Handle) (operation : SecurityOperation)
    (mode : SecurityMode) (epoch : ℕ) : Event :=
  { eventType := .securityChanged, endpoint := endpoint, session := session
    data := mode.toByte :: toBytes 8 epoch ++ [operation.toByte] }

/-- Event of an application message. -/
def messageEvent (endpoint session : Handle) (frame : Frame) (integrity : Bool) : Event :=
  { eventType := .message, endpoint := endpoint, session := session
    correlationId := frame.header.correlationId, data := frame.body
    integrityVerified := integrity }

/-- Event of a game control. -/
def gameControlEvent (endpoint session : Handle) (data : Bytes) : Event :=
  { eventType := .gameControl, endpoint := endpoint, session := session, data := data }

/-- Event without data. -/
def sessionEvent (eventType : EventType) (endpoint session : Handle) : Event :=
  { eventType := eventType, endpoint := endpoint, session := session }

def pushEvent (event : Event) : Local N × Result Unit :=
  ({ l with shared := (l.shared.tryPushSessionEvent call.eventRoom event).1 },
    (l.shared.tryPushSessionEvent call.eventRoom event).2)

def openMessage (max : ℕ) (t : DatagramTransport N) (c : SecurityController) (record : Record) :
    DatagramTransport N × Result ProtectedMessage :=
  match record.kind with
  | .plainData =>
    if c.mode = .plaintext then (t, .ok ⟨.data, record.payload⟩)
    else (t, protocol "record mode mismatch")
  | .protectedRecord => decrypt t record max
  | _ => (t, protocol "record mode mismatch")

/-- Sends the controller's response: acknowledgements end an exchange, other barriers are kept
until they are answered. -/
def respond (epoch : ℕ) : Option Control → Local N × DatagramTransport N × Result Unit
  | none => (l, t, .ok ())
  | some response =>
    if response.kind = .switchAck ∨ response.kind = .rekeyAck then
      sendProtectedResponse setup call l t epoch .control (encodeControl response) 64
    else sendProtected setup call l t epoch .control (encodeControl response) 64

/-- The end of the control arm: a completed transition is published. -/
def finishControl (kind : ControlKind) : Outcome N :=
  match completedOperation kind with
  | some operation =>
    if c.isTransitioning then ⟨l, t, c, .ok ()⟩
    else
      let pushed := pushEvent call l
        (securityChangedEvent setup.endpoint session operation c.mode c.epoch)
      ⟨pushed.1, t, c, pushed.2⟩
  | none => ⟨l, t, c, .ok ()⟩

/-- The control arm: the key effects of the controller straddle its response. -/
def handleControl (epoch : ℕ) (payload : Bytes) : Outcome N :=
  match decodeControl payload with
  | .error e => ⟨l, t, c, .error e⟩
  | .ok control =>
    match c.handle control with
    | (c, .error e) => ⟨l, t, c, .error e⟩
    | (c, .ok transition) =>
      match respond setup call l (apply t transition.beforeResponse) epoch transition.response with
      | (l, t, .error e) => ⟨l, t, c, .error e⟩
      | (l, t, .ok ()) =>
        finishControl setup call l session (apply t transition.afterResponse) c control.kind

/-- What `handle_established` does with a message it opened. -/
def dispatch (record : Record) (message : ProtectedMessage) : Outcome N :=
  match message.kind with
  | .data =>
    if record.kind = .protectedRecord ∧ c.mode ≠ .encrypted then
      ⟨l, t, c, protocol "encrypted data received while plaintext mode is active"⟩
    else
      match decodeDatagram message.payload l.shared.config.maxBodyLen with
      | .error e => ⟨l, t, c, .error e⟩
      | .ok frame =>
        let pushed := pushEvent call l
          (messageEvent setup.endpoint session frame (record.kind = .protectedRecord))
        ⟨pushed.1, t, c, pushed.2⟩
  | .gameControl =>
    if record.kind = .protectedRecord then
      if l.shared.config.maxBodyLen < message.payload.length then
        ⟨l, t, c, protocol "game control exceeds the configured body limit"⟩
      else
        let pushed := pushEvent call l (gameControlEvent setup.endpoint session message.payload)
        ⟨pushed.1, t, c, pushed.2⟩
    else ⟨l, t, c, protocol "game controls must be authenticated"⟩
  | .control => handleControl setup call l session t c record.epoch message.payload
  | .authAck =>
    if message.payload = [] then ⟨l, t, c, .ok ()⟩
    else ⟨l, t, c, protocol "unexpected protected message"⟩
  | .authDecision => ⟨l, t, c, protocol "unexpected protected message"⟩

/-- A record of an established session. -/
def handleEstablished (record : Record) : Outcome N :=
  if !l.shared.sessionActive session || record.epoch ≠ c.epoch then
    ⟨l, t, c, protocol "invalid security epoch"⟩
  else
    match openMessage (l.shared.config.maxBodyLen + 64) t c record with
    | (t, .error e) => ⟨l, t, c, .error e⟩
    | (t, .ok message) => dispatch setup call l session t c record message

theorem handleEstablished_of_open {setup : Setup N} {call : Call N} {l : Local N}
    {session : Handle} {t t' : DatagramTransport N} {c : SecurityController} {record : Record}
    {message : ProtectedMessage} (ha : l.shared.sessionActive session = true)
    (he : record.epoch = c.epoch)
    (ho : openMessage (l.shared.config.maxBodyLen + 64) t c record = (t', .ok message)) :
    handleEstablished setup call l session t c record =
      dispatch setup call l session t' c record message := by
  unfold handleEstablished
  rw [ha, ho]
  simp [he]

/-! ### What the receive path takes -/

/-- What the receive path takes from the application of the other side. -/
def Takes (c : RuntimeConfig) (m : ProtectedMessage) : Prop :=
  (m.kind = .data ∧ ∃ frame, decodeDatagram m.payload c.maxBodyLen = .ok frame) ∨
    (m.kind = .gameControl ∧ m.payload.length ≤ c.maxBodyLen)

def messageOf (o : Outbound) : ProtectedMessage :=
  match o.kind with
  | .data => ⟨.data, o.bytes⟩
  | .gameControl => ⟨.gameControl, o.bytes⟩

/-- A message that a public send admitted under these limits. -/
def Admissible (c : RuntimeConfig) (o : Outbound) : Prop := Takes c (messageOf o)

end

/-! ### What a response leaves alone -/

variable (setup : Setup N) (call : Call N) (l : Local N) (t : DatagramTransport N) (epoch : ℕ)

theorem sameDriver_sendProtectedResponse (kind : ProtectedKind) (data : Bytes) (max : ℕ) :
    SameDriver l (sendProtectedResponse setup call l t epoch kind data max).1 := by
  unfold sendProtectedResponse
  split
  · exact .refl l
  · exact sameDriver_sendResponse ..

theorem sameDriver_sendProtected (kind : ProtectedKind) (data : Bytes) (max : ℕ) :
    SameDriver l (sendProtected setup call l t epoch kind data max).1 := by
  unfold sendProtected
  split
  · exact .refl l
  · exact sameDriver_sendReliable ..

theorem sameDriver_respond (response : Option Control) :
    SameDriver l (respond setup call l t epoch response).1 := by
  unfold respond
  split
  · exact .refl l
  split_ifs
  · exact sameDriver_sendProtectedResponse ..
  · exact sameDriver_sendProtected ..

theorem respond_keys (response : Option Control) :
    (respond setup call l t epoch response).2.1.outKey = t.outKey ∧
      (respond setup call l t epoch response).2.1.inKey = t.inKey ∧
      (respond setup call l t epoch response).2.1.replay = t.replay := by
  unfold respond
  split
  · exact ⟨rfl, rfl, rfl⟩
  rename_i k
  have h := protectedRecord_keys t epoch .control (encodeControl k) 64
  split_ifs
  · unfold sendProtectedResponse
    split <;> rename_i he <;> rw [he] at h <;> exact h
  · unfold sendProtected
    split <;> rename_i he <;> rw [he] at h <;> exact h

end Rnet.Transport.Session
