import Rnet.Game.Envelope
import Rnet.Game.Join

/-! # Payloads of the game controls

What the library's controls carry: a heartbeat challenge, the timestamps of a clock sample, and the
selection of a business version with the nonce and the server handle it belongs to. -/

namespace Rnet.Game.Controls

open Rnet.Core Lib.BigEndian
open Envelope (protocolError)
open Join (Nonce)

theorem u64_lt (n : UInt64) : n.toNat < 256 ^ 8 := n.toNat_lt

/-! ### Heartbeats -/

/-- Directions of a heartbeat. -/
inductive HeartbeatKind
  | probe | ack
  deriving DecidableEq

/-- A heartbeat with its challenge. -/
structure HeartbeatPacket where
  kind : HeartbeatKind
  challenge : UInt64
  deriving DecidableEq

def heartbeatLen : ℕ := 9

/-- Layout of a heartbeat. -/
def heartbeatPayload (packet : HeartbeatPacket) : Bytes :=
  (match packet.kind with
    | .probe => 1
    | .ack => 2) :: toBytes 8 packet.challenge.toNat

/-- Reads a heartbeat. -/
def decodeHeartbeat (payload : Bytes) : Result HeartbeatPacket :=
  if payload.length ≠ heartbeatLen then .error (protocolError "invalid heartbeat length")
  else if payload.getD 0 0 = 1 then .ok ⟨.probe, UInt64.ofNat (field payload 1 8)⟩
  else if payload.getD 0 0 = 2 then .ok ⟨.ack, UInt64.ofNat (field payload 1 8)⟩
  else .error (protocolError "invalid heartbeat operation")

theorem decodeHeartbeat_payload (packet : HeartbeatPacket) :
    decodeHeartbeat (heartbeatPayload packet) = .ok packet := by
  obtain ⟨kind, challenge⟩ := packet
  have hf := field_toBytes (u64_lt challenge)
  cases kind <;> simp [decodeHeartbeat, heartbeatPayload, field_cons, hf, heartbeatLen]

/-! ### Clock samples -/

/-- Probe and reply of the clock synchronization. -/
inductive ClockPacket
  | probe (nonce t1 : UInt64)
  | reply (nonce t1 t2 t3 : UInt64)
  deriving DecidableEq

def probeLen : ℕ := 17
def replyLen : ℕ := 33

/-- Layout of a clock packet. -/
def clockPayload : ClockPacket → Bytes
  | .probe nonce t1 => 1 :: (toBytes 8 nonce.toNat ++ toBytes 8 t1.toNat)
  | .reply nonce t1 t2 t3 =>
    2 :: (toBytes 8 nonce.toNat ++ (toBytes 8 t1.toNat ++ (toBytes 8 t2.toNat ++ toBytes 8 t3.toNat)))

/-- Reads a clock packet. -/
def decodeClock (payload : Bytes) : Result ClockPacket :=
  let word (start : ℕ) := UInt64.ofNat (field payload start 8)
  if payload.head? = some 1 ∧ payload.length = probeLen then .ok (.probe (word 1) (word 9))
  else if payload.head? = some 2 ∧ payload.length = replyLen then
    .ok (.reply (word 1) (word 9) (word 17) (word 25))
  else .error (protocolError "invalid clock sync control")

theorem decodeClock_payload (packet : ClockPacket) :
    decodeClock (clockPayload packet) = .ok packet := by
  cases packet with
  | probe nonce t1 =>
    have hn := u64_lt nonce
    have h1 := u64_lt t1
    simp (disch := omega) [decodeClock, clockPayload, field_cons, field_skip, field_toBytes_append,
      field_toBytes, probeLen]
  | reply nonce t1 t2 t3 =>
    have hn := u64_lt nonce
    have h1 := u64_lt t1
    have h2 := u64_lt t2
    have h3 := u64_lt t3
    simp (disch := omega) [decodeClock, clockPayload, field_cons, field_skip, field_toBytes_append,
      field_toBytes, replyLen]

/-! ### Version selection -/

def select : UInt8 := 1
def ack : UInt8 := 2
def ready : UInt8 := 3

/-- Length of a selection. -/
def controlLen : ℕ := 37

structure Selection where
  operation : UInt8
  nonce : Nonce
  protocolId : UInt64
  version : UInt32
  serverHandle : Handle
  deriving DecidableEq

def selectionPayload (c : Selection) : Bytes :=
  c.operation :: (c.nonce.bytes ++ (toBytes 8 c.protocolId.toNat ++ (toBytes 4 c.version.toNat ++
    toBytes 8 c.serverHandle)))

def readSelection (payload : Bytes) : Selection where
  operation := payload.getD 0 0
  nonce := .read payload 1
  protocolId := UInt64.ofNat (field payload 17 8)
  version := UInt32.ofNat (field payload 25 4)
  serverHandle := field payload 29 8

@[simp] theorem length_selectionPayload (c : Selection) :
    (selectionPayload c).length = controlLen := by
  simp [selectionPayload, c.nonce.length_eq, controlLen]

theorem readSelection_payload (h : c.serverHandle ≤ u64Max) :
    readSelection (selectionPayload c) = c := by
  have hl := c.nonce.length_eq
  have hh : c.serverHandle < 256 ^ 8 := Nat.lt_of_le_of_lt h (by decide)
  have hn : Nonce.read (selectionPayload c) 1 = c.nonce := Nonce.read_append [c.operation] _ _
  have hi := u64_lt c.protocolId
  have hv := Envelope.u32_lt c.version
  rw [readSelection, hn]
  simp (disch := omega) only [selectionPayload, field_cons, field_append_right, hl, field_skip,
    field_toBytes_append, field_toBytes, Nat.reduceSub, UInt64.ofNat_toNat, UInt32.ofNat_toNat]
  rfl

/-! ### Nothing else is accepted -/

theorem u64_field (payload : Bytes) (i : ℕ) :
    (UInt64.ofNat (field payload i 8)).toNat = field payload i 8 :=
  UInt64.toNat_ofNat_of_lt (field_lt payload i 8)

/-- The last word of a payload. -/
theorem drop_word (h : payload.length = i + 8) :
    payload.drop i = toBytes 8 (field payload i 8) := by
  rw [drop_eq_field payload h.ge, List.drop_of_length_le h.le, List.append_nil]

theorem eq_of_decodeHeartbeat (h : decodeHeartbeat payload = .ok packet) :
    payload = heartbeatPayload packet := by
  obtain ⟨hl, h⟩ := ok_of_check h
  rw [not_not] at hl
  obtain ⟨b, rest, rfl⟩ := List.exists_cons_of_length_pos (l := payload) (by rw [hl]; decide)
  split_ifs at h with h1 h2 <;> cases h <;> simp only [heartbeatPayload, u64_field]
  · exact congrArg₂ List.cons h1 (drop_word hl)
  · exact congrArg₂ List.cons h2 (drop_word hl)

theorem eq_of_decodeClock (h : decodeClock payload = .ok packet) : payload = clockPayload packet := by
  unfold decodeClock at h
  split_ifs at h with h1 h2
  · obtain ⟨rest, rfl⟩ := List.head?_eq_some_iff.mp h1.1
    have hl : (1 :: rest).length = 9 + 8 := h1.2
    cases h
    simp only [clockPayload, u64_field]
    rw [← drop_word hl, ← drop_eq_field _ (by omega)]
    rfl
  · obtain ⟨rest, rfl⟩ := List.head?_eq_some_iff.mp h2.1
    have hl : (2 :: rest).length = 25 + 8 := h2.2
    cases h
    simp only [clockPayload, u64_field]
    rw [← drop_word hl, ← drop_eq_field _ (by omega), ← drop_eq_field _ (by omega),
      ← drop_eq_field _ (by omega)]
    rfl

theorem selectionPayload_read (h : payload.length = controlLen) :
    selectionPayload (readSelection payload) = payload := by
  obtain ⟨b, rest, rfl⟩ := List.exists_cons_of_length_pos (l := payload) (by rw [h]; decide)
  have hl : (b :: rest).length = 29 + 8 := h
  have hv : (UInt32.ofNat (field (b :: rest) 25 4)).toNat = field (b :: rest) 25 4 :=
    UInt32.toNat_ofNat_of_lt (field_lt _ 25 4)
  have hn : (Nonce.read (b :: rest) 1).bytes = ((b :: rest).drop 1).take 16 :=
    List.take_append_of_le_length (by rw [List.length_drop, hl]; decide)
  simp only [selectionPayload, readSelection, u64_field, hv, hn]
  rw [← drop_word hl, ← drop_eq_field _ (by omega), ← drop_eq_field _ (by omega),
    show (17 : ℕ) = 1 + 16 from rfl, ← List.drop_drop, List.take_append_drop]
  rfl

/-- **The payloads of the controls are canonical**: a decoder accepts exactly what the encoder writes,
and a selection of the right length is what is written for the values read from it. -/
theorem controls_canonical :
    Canonical (fun _ => True) (fun _ => True) (fun packet => .ok (heartbeatPayload packet))
      decodeHeartbeat ∧
    Canonical (fun _ => True) (fun _ => True) (fun packet => .ok (clockPayload packet)) decodeClock ∧
    (∀ payload, payload.length = controlLen → selectionPayload (readSelection payload) = payload) ∧
    ∀ c, c.serverHandle ≤ u64Max → readSelection (selectionPayload c) = c := by
  refine ⟨.of_iff (fun _ => ⟨fun _ => trivial, fun _ => ⟨_, rfl⟩⟩) fun b v =>
    ⟨fun h => ⟨trivial, ?_⟩, ?_⟩,
    .of_iff (fun _ => ⟨fun _ => trivial, fun _ => ⟨_, rfl⟩⟩) fun b v =>
        ⟨fun h => ⟨trivial, ?_⟩, ?_⟩, fun _ => selectionPayload_read,
    fun _ => readSelection_payload⟩
  · rw [eq_of_decodeHeartbeat h]
  · rintro ⟨-, ⟨⟩⟩
    exact decodeHeartbeat_payload v
  · rw [eq_of_decodeClock h]
  · rintro ⟨-, ⟨⟩⟩
    exact decodeClock_payload v

end Rnet.Game.Controls
