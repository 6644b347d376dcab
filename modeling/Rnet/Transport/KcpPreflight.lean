import Rnet.Security.TagNoise
import Rnet.Transport.Wire

/-! # KCP address validation and input

Before an address may own a KCP engine it answers a stateless cookie challenge. `handlePreflight`
runs on every datagram of an address without an engine; `receiveKcp` feeds the engine, creating it
from the authorization the preflight left. What the KCP library makes of a packet is part of the
environment: whether it accepts it, how many segments stay unacknowledged and which messages become
complete. -/

namespace Rnet.Transport.KcpPreflight

open Rnet.Core Lib.BigEndian Protocol.Records Security.Cipher Security.TagNoise Config Slots Wire

variable {N : Noise}

/-- First bytes of a preflight packet. -/
def magic : Bytes := [0x52, 0x4e, 0x4b, 0x32]

/-- Packets before a conversation exists. -/
inductive Preflight
  | hello (conv : ℕ) (cookie : Bytes)
  | challenge (conv : ℕ) (cookie : Bytes)
  deriving DecidableEq

/-- Hello of the client. -/
def encodeHello (conv : ℕ) (cookie : Bytes) : Bytes := magic ++ (1 :: (toBytes 4 conv ++ cookie))

/-- Challenge of the server. -/
def encodeChallenge (conv : ℕ) (cookie : Bytes) : Bytes :=
  magic ++ (2 :: (toBytes 4 conv ++ cookie))

/-- Reads a preflight packet. -/
def decode (packet : Bytes) : Option Preflight :=
  if packet.take 4 ≠ magic ∨ packet.length < 9 then none
  else
    let conv := field packet 5 4
    let cookie := packet.drop 9
    if conv = 0 then none
    else if (packet.drop 4).headD 0 = 1 ∧ (cookie.length = 0 ∨ cookie.length = cookieLen) then
      some (.hello conv cookie)
    else if (packet.drop 4).headD 0 = 2 ∧ cookie.length = cookieLen then
      some (.challenge conv cookie)
    else none

/-- Reserves an engine for the conversation. -/
def authorizePeer (call : Call N) (l : Local N) (conv : ℕ) : Local N × Result Unit :=
  if conv = 0 then (l, .error ⟨.invalidArgument, "KCP conversation must be nonzero"⟩)
  else if l.slot.engine.isSome then (l, .ok ())
  else
    match l.slot.authorized with
    | some current =>
      if current = conv then (l, .ok ())
      else
        (l, .error ⟨.protocolError, "KCP preflight changed an authorized conversation"⟩)
    | none =>
      if l.shared.config.maxSessionsPerEndpoint ≤ call.others.engines + call.others.authorized then
        (l, .error ⟨.rateLimited, "KCP peer limit reached"⟩)
      else ({ l with slot := { l.slot with authorized := some conv } }, .ok ())

/-- A hello with a valid cookie: the address takes an admission permit and is authorized. -/
def admitHello (call : Call N) (l : Local N) (conv : ℕ) : Local N :=
  if !l.slot.permit && !call.admission then l
  else
    let l := { l with slot := { l.slot with permit := true } }
    match authorizePeer call l conv with
    | (l, .ok ()) =>
      { l with slot := { l.slot with
        preflight := some (call.now + l.shared.config.handshakeTimeout) } }
    | (l, .error _) => { l with slot := { l.slot with permit := false } }

/-- `handle_preflight`: whether the datagram was consumed. -/
def handlePreflight (setup : Setup N) (remote : Option SocketAddr) (call : Call N) (l : Local N)
    (packet : Bytes) : Local N × Result Bool :=
  if setup.kind ≠ .kcp ∨ l.slot.engine.isSome then (l, .ok false)
  else
    match decode packet, setup.security with
    | some (.hello conv cookie), .adaptiveServer _ _ =>
      if cookie.length = cookieLen ∧ call.cookieValid cookie then (admitHello call l conv, .ok true)
      else ((sendTo call l (encodeChallenge conv call.cookieIssue.bytes)).1, .ok true)
    | some (.challenge conv cookie), .adaptiveClient _ =>
      if remote = some call.peer then
        match sendTo call l (encodeHello conv cookie) with
        | (l, .error e) => (l, .error e)
        | (l, .ok ()) =>
          match authorizePeer call l conv with
          | (l, .error e) => (l, .error e)
          | (l, .ok ()) =>
            match sendReliable setup call l ⟨.clientHello, 0, cookie⟩ 128 with
            | (l, .error e) => (l, .error e)
            | (l, .ok ()) => (l, .ok true)
      else (l, .ok true)
    | some _, _ => (l, .ok true)
    | none, _ => if l.slot.preflight.isSome then (l, .ok false) else (l, .ok true)

theorem handlePreflight_past (h : setup.kind ≠ .kcp ∨ l.slot.engine.isSome) :
    handlePreflight setup remote call l packet = (l, .ok false) := if_pos h

variable (call : Call N) (l : Local N)

/-- What the KCP library makes of one packet: the answers of `input` and of receiving every complete
message, the unacknowledged segments and the failure flag it leaves, and the complete messages. -/
structure KcpInput where
  accepted : Result Unit
  received : Result Unit
  waitSnd : ℕ
  failed : Bool
  delivered : List Bytes

/-- `receive` on KCP. The byte counter follows the engine only when the whole call succeeds. -/
def receiveKcp (input : KcpInput) : Local N × Result (List Bytes) :=
  match l.slot.engine with
  | some e =>
    let l' := { l with slot := { l.slot with
      engine := some { e with waitSnd := input.waitSnd, failed := input.failed } } }
    match input.accepted, input.received with
    | .error err, _ | .ok (), .error err => (l', .error err)
    | .ok (), .ok () =>
      ({ l' with kcpQueuedBytes := l.kcpQueuedBytes - queuedBytes l.shared.config e +
          input.waitSnd * mss l.shared.config }, .ok input.delivered)
  | none =>
    match l.slot.authorized with
    | none => (l, .error ⟨.authRejected, "KCP preflight authorization required"⟩)
    | some conv =>
      let l := { l with slot := { l.slot with authorized := none } }
      if l.shared.config.maxSessionsPerEndpoint ≤ call.others.engines then
        (l, .error ⟨.rateLimited, "KCP peer limit reached"⟩)
      else
        match newEngine l.shared.config conv with
        | .error e => (l, .error e)
        | .ok e =>
          match input.accepted with
          | .error err => (l, .error err)
          | .ok () =>
            let l := { l with slot := { l.slot with
              engine := some { e with waitSnd := input.waitSnd, failed := input.failed } } }
            match input.received with
            | .error err => (l, .error err)
            | .ok () => (l, .ok input.delivered)

/-! ### A rejected first packet -/

/-- **A rejected first packet spends the authorization.** Whatever packet `receive` rejects at an
authorized address without creating an engine, the authorization is gone afterwards, and every later
packet, the genuine first one included, is refused. -/
theorem rejected_first_packet_revokes (call : Call N) (l : Local N) (input : KcpInput) {conv : ℕ}
    (he : l.slot.engine = none) (ha : l.slot.authorized = some conv)
    (hn : (receiveKcp call l input).1.slot.engine = none) :
    (∃ e, (receiveKcp call l input).2 = .error e) ∧
      (receiveKcp call l input).1.slot.authorized = none ∧ (receiveKcp call l input).1 ≠ l ∧
      ∀ call' genuine, (receiveKcp call' (receiveKcp call l input).1 genuine).2 =
        .error ⟨.authRejected, "KCP preflight authorization required"⟩ := by
  have hs : (∃ e, (receiveKcp call l input).2 = .error e) ∧
      (receiveKcp call l input).1.slot.authorized = none := by
    unfold receiveKcp at hn ⊢
    rw [he] at hn ⊢
    rw [ha] at hn ⊢
    dsimp only at hn ⊢
    split at hn
    · rw [if_pos ‹_›]
      exact ⟨⟨_, rfl⟩, rfl⟩
    rw [if_neg ‹_›]
    split at hn
    · exact ⟨⟨_, rfl⟩, rfl⟩
    split at hn
    · exact ⟨⟨_, rfl⟩, rfl⟩
    · split at hn <;> cases hn
  obtain ⟨hr, hs⟩ := hs
  refine ⟨hr, hs, fun hsa => ?_, fun call' genuine => ?_⟩
  · rw [hsa, ha] at hs
    cases hs
  generalize (receiveKcp call l input).1 = l' at hs hn
  unfold receiveKcp
  rw [hn]
  rw [hs]

/-- An address that passed the preflight for conversation `1`. -/
def authorizedLocal : Local tagNoise where
  slot := { Slot.empty tagNoise with authorized := some 1, preflight := some 5000 }
  shared := .initial .production
  kcpQueuedBytes := 0
  deferredCount := 0
  sent := []
  handed := []

def quiet : Call tagNoise where
  peer := ⟨.v4 1, 1⟩
  now := 0
  sendOk := true
  sendError := ""
  eventRoom := true
  admission := true
  seed := (0 : UInt64)
  cookieValid := fun _ => true
  cookieIssue := ⟨List.replicate cookieLen 0, List.length_replicate⟩
  others := ⟨0, 0, 0, 0, 0⟩

/-- A packet of conversation `2`. -/
def strayPacket : KcpInput :=
  ⟨.error ⟨.protocolError, "conv inconsistent, expected 1, found 2"⟩, .ok (), 0, false, []⟩

def firstPacket : KcpInput := ⟨.ok (), .ok (), 0, false, [[1]]⟩

theorem rejected_first_packet_revokes_stray :
    authorizedLocal.slot.authorized = some 1 ∧
      (receiveKcp quiet authorizedLocal strayPacket).1.slot.authorized = none :=
  ⟨rfl, (rejected_first_packet_revokes quiet authorizedLocal strayPacket rfl rfl rfl).2.1⟩

theorem genuine_packet_refused_after_stray :
    (receiveKcp quiet authorizedLocal firstPacket).2 = .ok [[1]] ∧
      (receiveKcp quiet authorizedLocal strayPacket).2 =
        .error ⟨.protocolError, "conv inconsistent, expected 1, found 2"⟩ ∧
      (receiveKcp quiet (receiveKcp quiet authorizedLocal strayPacket).1 firstPacket).2 =
        .error ⟨.authRejected, "KCP preflight authorization required"⟩ :=
  ⟨rfl, rfl, rfl⟩

/-! ### What the preflight leaves alone -/

theorem receiveKcp_cases (kcp : KcpInput) :
    (receiveKcp call l kcp).1.slot.permit = l.slot.permit ∧
    (receiveKcp call l kcp).1.slot.preflight = l.slot.preflight ∧
    (∀ delivered, (receiveKcp call l kcp).2 = .ok delivered →
      (receiveKcp call l kcp).1.slot.engine.isSome) := by
  unfold receiveKcp
  split
  · split
    · exact ⟨rfl, rfl, nofun⟩
    · exact ⟨rfl, rfl, nofun⟩
    · exact ⟨rfl, rfl, fun _ _ => rfl⟩
  · split
    · exact ⟨rfl, rfl, nofun⟩
    dsimp only
    split
    · exact ⟨rfl, rfl, nofun⟩
    split
    · exact ⟨rfl, rfl, nofun⟩
    split
    · exact ⟨rfl, rfl, nofun⟩
    split
    · exact ⟨rfl, rfl, nofun⟩
    · exact ⟨rfl, rfl, fun _ _ => rfl⟩

theorem sameDriver_authorizePeer (conv : ℕ) : SameDriver l (authorizePeer call l conv).1 := by
  unfold authorizePeer
  split
  · exact .refl l
  split
  · exact .refl l
  split
  · split <;> exact .refl l
  split
  · exact .refl l
  · exact ⟨rfl, rfl, rfl, rfl, rfl, rfl⟩

theorem sameDriver_admitHello (conv : ℕ) : SameDriver l (admitHello call l conv) := by
  unfold admitHello
  split_ifs
  · exact .refl l
  have h := sameDriver_authorizePeer call { l with slot := { l.slot with permit := true } } conv
  have hp : SameDriver l { l with slot := { l.slot with permit := true } } :=
    ⟨rfl, rfl, rfl, rfl, rfl, rfl⟩
  dsimp only
  split <;> rename_i he <;> rw [he] at h <;>
    exact (hp.trans h).trans ⟨rfl, rfl, rfl, rfl, rfl, rfl⟩

theorem sameDriver_handlePreflight (setup : Setup N) (remote : Option SocketAddr) (call : Call N)
    (l : Local N) (packet : Bytes) :
    SameDriver l (handlePreflight setup remote call l packet).1 := by
  unfold handlePreflight
  split
  · exact .refl l
  split
  · split_ifs
    · exact sameDriver_admitHello ..
    · exact sameDriver_sendTo ..
  · rename_i conv cookie _ _ _
    split_ifs
    · have hh := sameDriver_sendTo call l (encodeHello conv cookie)
      split <;> rename_i he <;> rw [he] at hh
      · exact hh
      rename_i l₁
      have ha := sameDriver_authorizePeer call l₁ conv
      split <;> rename_i he' <;> rw [he'] at ha
      · exact hh.trans ha
      rename_i l₂
      have hs := sameDriver_sendReliable setup call l₂ ⟨.clientHello, 0, cookie⟩ 128
      split <;> rename_i he'' <;> rw [he''] at hs
      · exact (hh.trans ha).trans hs
      · exact (hh.trans ha).trans hs
    · exact .refl l
  · exact .refl l
  · split_ifs <;> exact .refl l

theorem sameDriver_receiveKcp (input : KcpInput) : SameDriver l (receiveKcp call l input).1 := by
  unfold receiveKcp
  split
  · split <;> exact ⟨rfl, rfl, rfl, rfl, rfl, rfl⟩
  split
  · exact .refl l
  dsimp only
  split
  · exact ⟨rfl, rfl, rfl, rfl, rfl, rfl⟩
  split
  · exact ⟨rfl, rfl, rfl, rfl, rfl, rfl⟩
  split
  · exact ⟨rfl, rfl, rfl, rfl, rfl, rfl⟩
  · split <;> exact ⟨rfl, rfl, rfl, rfl, rfl, rfl⟩

end Rnet.Transport.KcpPreflight
