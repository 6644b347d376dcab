import Rnet.Core.Basic

/-! # Logical frames

A business message travels as one frame: a 20-byte header (magic, version, flags, body length,
correlation id) followed by the body. `encodeFrame` is what a send produces before admission and
`decodeDatagram` what the receiving session runs on the bytes it recovered. -/

namespace Rnet.Protocol.Framing

open Rnet.Core Lib.BigEndian

/-- First field of a frame. -/
def magic : ℕ := 0x524e4554

def version : ℕ := 2

def headerLen : ℕ := 20

/-- Fields of a frame header behind the magic. -/
structure FrameHeader where
  version : ℕ
  flags : ℕ
  bodyLen : ℕ
  correlationId : UInt64
  deriving DecidableEq

/-- A decoded frame. -/
structure Frame where
  header : FrameHeader
  body : Bytes
  deriving DecidableEq

/-- No flag is defined. -/
def validateFlags (flags : ℕ) : Result Unit :=
  if flags ≠ 0 then .error ⟨.protocolError, "frame contains unsupported flags"⟩ else .ok ()

/-- Frames a body within the limit. -/
def encodeFrame (correlationId : UInt64) (flags : ℕ) (body : Bytes) (maxBodyLen : ℕ) :
    Result Bytes :=
  if maxBodyLen = 0 ∨ u32Max < maxBodyLen then
    .error ⟨.invalidArgument, "maximum body length must be between 1 and u32::MAX"⟩
  else
    match validateFlags flags with
    | .error e => .error e
    | .ok () =>
      if maxBodyLen < body.length ∨ u32Max < body.length then
        .error ⟨.messageTooLarge, "message exceeds configured body limit"⟩
      else
        .ok (toBytes 4 magic ++ (toBytes 2 version ++ (toBytes 2 flags ++
          (toBytes 4 body.length ++ (toBytes 8 correlationId.toNat ++ body)))))

/-- Header at the start of the input. -/
def parseHeader (input : Bytes) (maxBodyLen : ℕ) : Result FrameHeader :=
  if field input 0 4 ≠ magic then .error ⟨.protocolError, "invalid frame magic"⟩
  else if field input 4 2 ≠ version then .error ⟨.protocolError, "unsupported frame version"⟩
  else
    match validateFlags (field input 6 2) with
    | .error e => .error e
    | .ok () =>
      if maxBodyLen < field input 8 4 then
        .error ⟨.messageTooLarge, "declared body exceeds configured limit"⟩
      else
        .ok ⟨field input 4 2, field input 6 2, field input 8 4, UInt64.ofNat (field input 12 8)⟩

/-- `decode_datagram`: exactly one complete frame. -/
def decodeDatagram (input : Bytes) (maxBodyLen : ℕ) : Result Frame :=
  if input.length < headerLen then
    .error ⟨.protocolError, "datagram does not contain a complete header"⟩
  else
    match parseHeader (input.take headerLen) maxBodyLen with
    | .error e => .error e
    | .ok header =>
      if input.length ≠ headerLen + header.bodyLen then
        .error ⟨.protocolError, "datagram must contain exactly one complete frame"⟩
      else .ok ⟨header, input.drop headerLen⟩

/-! ### Encoding -/

def frameOf (correlationId : UInt64) (body : Bytes) : Bytes :=
  toBytes 4 magic ++ (toBytes 2 version ++ (toBytes 2 0 ++
    (toBytes 4 body.length ++ (toBytes 8 correlationId.toNat ++ body))))

@[simp] theorem length_frameOf (c : UInt64) (body : Bytes) :
    (frameOf c body).length = headerLen + body.length := by
  simp [frameOf, headerLen]; omega

theorem encodeFrame_eq_ok_iff :
    encodeFrame c 0 body m = .ok frame ↔ 0 < m ∧ m ≤ u32Max ∧ body.length ≤ m ∧ frame =
      frameOf c body := by
  simp only [encodeFrame, validateFlags, ne_eq, not_true_eq_false, if_false]
  split_ifs with h1 h2
  · simp only [false_iff]; omega
  · simp only [false_iff]; omega
  simp only [Except.ok.injEq, frameOf]
  constructor
  · rintro rfl; exact ⟨by omega, by omega, by omega, rfl⟩
  · rintro ⟨-, -, -, rfl⟩; rfl

theorem drop_frameOf (c : UInt64) (body : Bytes) : (frameOf c body).drop headerLen = body := by
  have h : frameOf c body = (toBytes 4 magic ++ toBytes 2 version ++ toBytes 2 0 ++
      toBytes 4 body.length ++ toBytes 8 c.toNat) ++ body := by
    simp only [frameOf, List.append_assoc]
  rw [h]
  exact List.drop_left' (by simp [headerLen])

/-! ### Decoding what was encoded -/

theorem field_frameOf (c : UInt64) (body : Bytes) (hb : body.length ≤ u32Max) :
    field ((frameOf c body).take headerLen) 0 4 = magic ∧
    field ((frameOf c body).take headerLen) 4 2 = version ∧
    field ((frameOf c body).take headerLen) 6 2 = 0 ∧
    field ((frameOf c body).take headerLen) 8 4 = body.length ∧
    field ((frameOf c body).take headerLen) 12 8 = c.toNat := by
  have ht : (frameOf c body).take headerLen =
      toBytes 4 magic ++ (toBytes 2 version ++ (toBytes 2 0 ++
        (toBytes 4 body.length ++ toBytes 8 c.toNat))) := by
    simp [frameOf, headerLen, List.take_append, List.take_of_length_le]
  have hl : body.length < 256 ^ 4 := by unfold u32Max at hb; omega
  have hc : c.toNat < 256 ^ 8 := c.toNat_lt
  simp (disch := omega) [ht, magic, version, field_skip, field_toBytes_append, field_toBytes]

theorem parseHeader_frameOf (hb : body.length ≤ m) (hu : body.length ≤ u32Max) :
    parseHeader ((frameOf c body).take headerLen) m = .ok ⟨version, 0, body.length, c⟩ := by
  obtain ⟨h0, h4, h6, h8, h12⟩ := field_frameOf c body hu
  unfold parseHeader
  rw [h0, h4, h6, h8, h12, if_neg (by simp), if_neg (by simp), if_neg (not_lt.mpr hb),
    UInt64.ofNat_toNat]
  rfl

/-- **Frames round trip.** Decoding under the sender's own body limit recovers the frame. -/
theorem decodeDatagram_frameOf {c : UInt64} {body : Bytes} {m : ℕ} (hb : body.length ≤ m)
    (hm : m ≤ u32Max) :
    decodeDatagram (frameOf c body) m = .ok ⟨⟨version, 0, body.length, c⟩, body⟩ := by
  unfold decodeDatagram
  rw [parseHeader_frameOf hb (hb.trans hm), length_frameOf, if_neg (by omega)]
  simp only [ne_eq, not_true_eq_false, if_false, drop_frameOf]

theorem bodyLen_le_of_parseHeader (h : parseHeader input m = .ok header) : header.bodyLen ≤ m := by
  unfold parseHeader at h
  split at h
  · cases h
  split at h
  · cases h
  split at h
  · cases h
  split at h
  · cases h
  rename_i hb
  cases h
  exact not_lt.mp hb

theorem length_le_of_decodeDatagram (h : decodeDatagram input m = .ok frame) :
    input.length ≤ headerLen + m := by
  unfold decodeDatagram at h
  split at h
  · cases h
  split at h
  · cases h
  rename_i header hh
  split at h
  · cases h
  rename_i hl
  rw [not_ne_iff.mp hl]
  exact Nat.add_le_add_left (bodyLen_le_of_parseHeader hh) _

end Rnet.Protocol.Framing
