import Rnet.Protocol.Framing
import Rnet.Transport.State

/-! # Admission of application messages

A public send encodes its frame, looks the session up under the table lock, releases the lock, checks
the size a UDP route allows, reserves bytes in the runtime and session budgets and only then offers
the message to the worker's queue. `prepare` is everything before the queue; the queue itself belongs
to the worker. The bytes already reserved are read from shared counters, so they are an argument. -/

namespace Rnet.Transport.Sending

open Rnet.Core Lib.BigEndian Protocol.Framing State

/-- Bytes reserved in the runtime budget and in the budget of the session. -/
structure Usage where
  runtime : ℕ
  session : ℕ
  deriving DecidableEq

/-- Bytes within a budget. -/
def reserve (limit used bytes : ℕ) : Result Unit :=
  if u64Max < used + bytes then .error ⟨.wouldBlock, "send byte budget overflow"⟩
  else if limit < used + bytes then .error ⟨.wouldBlock, "send byte budget exhausted"⟩
  else .ok ()

def notAccepting : RnetError := ⟨.invalidState, "runtime is not accepting sends"⟩

/-- The route of a session that may send. -/
def sendingRoute (s : Shared) (session : Handle) (kind : OutboundKind) : Result SessionRoute :=
  match s.sessions.lookup session with
  | none => .error ⟨.invalidHandle, "invalid session"⟩
  | some route =>
    if !route.established then
      .error ⟨.handshakeRequired, "session handshake has not completed"⟩
    else if kind = .gameControl ∧ !route.allowsGameControls then
      .error ⟨.notSupported, "game controls require an adaptive Noise session"⟩
    else .ok route

/-- Whether a frame exceeds what a UDP route can carry. -/
def exceedsTarget (target : SessionTarget) (len : ℕ) : Bool :=
  match target with
  | .udp _ maxFrameLen => maxFrameLen < len
  | _ => false

/-- `enqueue_encoded` up to the worker's queue. -/
def prepare (s : Shared) (usage : Usage) (session : Handle) (frame : Bytes) (kind : OutboundKind) :
    Result (SessionTarget × Bytes) :=
  if !s.running then .error notAccepting
  else
    match sendingRoute s session kind with
    | .error e => .error e
    | .ok route =>
      if exceedsTarget route.target frame.length then
        .error ⟨.messageTooLarge, "encoded frame exceeds UDP datagram limit"⟩
      else
        match reserve s.config.maxRuntimeQueuedBytes usage.runtime frame.length with
        | .error e => .error e
        | .ok () =>
          match reserve s.config.maxSessionQueuedBytes usage.session frame.length with
          | .error e => .error e
          | .ok () => .ok (route.target, frame)

/-- Checks of a public send, and the frame. -/
def sendWithOptions (s : Shared) (usage : Usage) (session : Handle) (payload : Bytes)
    (correlationId : UInt64) : Result (SessionTarget × Bytes) :=
  if !s.running then .error notAccepting
  else
    match encodeFrame correlationId 0 payload s.config.maxBodyLen with
    | .error e => .error e
    | .ok frame => prepare s usage session frame .data

/-- Checks of a game control. -/
def sendGameControl (s : Shared) (usage : Usage) (session : Handle) (payload : Bytes) :
    Result (SessionTarget × Bytes) :=
  if !s.running then .error notAccepting
  else if s.config.maxBodyLen < payload.length then
    .error ⟨.messageTooLarge, "game control exceeds the configured body limit"⟩
  else prepare s usage session payload .gameControl

/-! ### What admission guarantees -/

theorem reserve_eq_ok :
    reserve limit used bytes = .ok () ↔ used + bytes ≤ u64Max ∧ used + bytes ≤ limit := by
  unfold reserve
  split_ifs with h1 h2
  · simp only [false_iff]; omega
  · simp only [false_iff]; omega
  · simp only [true_iff]; omega

/-- What an admitted message satisfies. -/
structure Admitted (s : Shared) (session : Handle) (target : SessionTarget) (len : ℕ) : Prop where
  running : s.running = true
  route : ∃ r, s.sessions.lookup session = some r ∧ r.established = true ∧ r.target = target
  target_fits : exceedsTarget target len = false
  runtime_le : len ≤ s.config.maxRuntimeQueuedBytes
  session_le : len ≤ s.config.maxSessionQueuedBytes

theorem admitted_of_prepare (h : prepare s usage session frame kind = .ok (target, out)) :
    out = frame ∧ Admitted s session target frame.length := by
  unfold prepare at h
  split_ifs at h with hru
  split at h
  · cases h
  rename_i route hro
  split_ifs at h with hf
  split at h
  · cases h
  rename_i hr
  split at h
  · cases h
  rename_i hs
  cases h
  unfold sendingRoute at hro
  split at hro
  · cases hro
  rename_i r hl
  split_ifs at hro with he
  cases hro
  refine ⟨rfl, by simpa using hru, ⟨_, hl, by simpa using he, rfl⟩,
    by simpa using hf, ?_, ?_⟩
  · have := (reserve_eq_ok.mp hr).2; omega
  · have := (reserve_eq_ok.mp hs).2; omega

theorem admitted_of_sendWithOptions
    (h : sendWithOptions s usage session payload c = .ok (target, out)) :
    out = frameOf c payload ∧ payload.length ≤ s.config.maxBodyLen ∧ s.config.maxBodyLen ≤ u32Max ∧
      Admitted s session target (headerLen + payload.length) := by
  unfold sendWithOptions at h
  split_ifs at h with hr
  split at h
  · cases h
  rename_i frame hf
  obtain ⟨-, hm, hb, rfl⟩ := encodeFrame_eq_ok_iff.mp hf
  obtain ⟨rfl, ha⟩ := admitted_of_prepare h
  rw [length_frameOf] at ha
  exact ⟨rfl, hb, hm, ha⟩

end Rnet.Transport.Sending
