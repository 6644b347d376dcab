import Rnet.Security.Cipher
import Rnet.Security.Controller
import Rnet.Protocol.Records

/-! # Record encryption for datagram sessions

How a datagram driver turns a message into a record and back under the session's controller and
transport. Encoding can fail after the send nonce was spent, so these functions return the transport
as it stands together with the result. -/

namespace Rnet.Transport.Codec

open Rnet.Core Lib.BigEndian Protocol.Records Security.Cipher Security.Controller

variable {N : Noise}

/-- Bytes the encrypted datagram format adds around a frame. -/
def encryptedUdpWireOverhead : ℕ := 5 + 8 + 16 + 20

/-- Refusal of a malformed record. -/
def protocol {α : Type} (message : String) : Result α := .error ⟨.protocolError, message⟩

/-- Seals a message into a record. -/
def protectedRecord (t : DatagramTransport N) (epoch : ℕ) (kind : ProtectedKind) (data : Bytes)
    (max : ℕ) : DatagramTransport N × Result Record :=
  match encodeProtected ⟨kind, data⟩ max with
  | .error e => (t, .error e)
  | .ok inner =>
    match t.encrypt inner with
    | (t, .error e) => (t, .error (mapSecurityError e))
    | (t, .ok cipher) => (t, .ok ⟨.protectedRecord, epoch, cipher⟩)

/-- Application data in the form the mode asks for. -/
def dataRecord (t : DatagramTransport N) (c : SecurityController) (data : Bytes) (max : ℕ) :
    DatagramTransport N × Result Record :=
  match c.mode with
  | .plaintext => (t, .ok ⟨.plainData, c.epoch, data⟩)
  | .encrypted => protectedRecord t c.epoch .data data max

/-- Opens a protected record. -/
def decrypt (t : DatagramTransport N) (record : Record) (max : ℕ) :
    DatagramTransport N × Result ProtectedMessage :=
  match t.decrypt record.payload with
  | (t, .error e) => (t, .error (mapSecurityError e))
  | (t, .ok plain) => (t, decodeProtected plain max)

/-- `apply`: only a rekey touches the transport. -/
def apply (t : DatagramTransport N) (effect : Effect) : DatagramTransport N :=
  if effect = .rekey then t.rekeyIncoming.rekeyOutgoing else t

/-! ### Specifications -/

variable {t t' : DatagramTransport N}

theorem protectedRecord_eq_ok {max : ℕ} :
    protectedRecord t epoch kind data max = (t', .ok r) ↔
      data.length ≤ max ∧ data.length ≤ u32Max ∧ t.sendNonce + 1 ≤ u64Max ∧
        ∃ c, N.write t.outKey t.sendNonce (protectedBytes ⟨kind, data⟩) = some c ∧
          t' = { t with sendNonce := t.sendNonce + 1 } ∧
          r = ⟨.protectedRecord, epoch, toBytes 8 t.sendNonce ++ c⟩ := by
  unfold protectedRecord
  constructor
  · intro h
    split at h
    · cases h
    rename_i inner hi
    obtain ⟨hm, hu, rfl⟩ := encodeProtected_eq_ok.mp hi
    split at h
    · cases h
    rename_i t1 cipher he
    cases h
    obtain ⟨hn, c, hw, rfl, rfl⟩ := DatagramTransport.encrypt_eq_ok.mp he
    exact ⟨hm, hu, hn, c, hw, rfl, rfl⟩
  · rintro ⟨hm, hu, hn, c, hw, rfl, rfl⟩
    rw [encodeProtected_eq_ok.mpr ⟨hm, hu, rfl⟩]
    simp only
    rw [DatagramTransport.encrypt_eq_ok.mpr ⟨hn, c, hw, rfl, rfl⟩]

theorem protectedRecord_keys (t : DatagramTransport N) (epoch : ℕ) (kind : ProtectedKind)
    (data : Bytes) (max : ℕ) :
    (protectedRecord t epoch kind data max).1.outKey = t.outKey ∧
      (protectedRecord t epoch kind data max).1.inKey = t.inKey ∧
      (protectedRecord t epoch kind data max).1.replay = t.replay := by
  unfold protectedRecord
  split
  · exact ⟨rfl, rfl, rfl⟩
  rename_i inner _
  have h := t.encrypt_keys inner
  split <;> rename_i he <;> rw [he] at h <;> exact h

theorem decrypt_keys (t : DatagramTransport N) (record : Record) (max : ℕ) :
    (decrypt t record max).1.outKey = t.outKey ∧ (decrypt t record max).1.inKey = t.inKey ∧
      (decrypt t record max).1.sendNonce = t.sendNonce := by
  unfold decrypt
  have h := t.decrypt_keys record.payload
  split <;> rename_i he <;> rw [he] at h <;> exact h

theorem decrypt_eq_ok {max : ℕ} (h : decrypt t record max = (t', .ok msg)) :
    ∃ p, t.decrypt record.payload = (t', .ok p) ∧ decodeProtected p max = .ok msg := by
  unfold decrypt at h
  split at h
  · cases h
  rename_i t1 p he
  obtain ⟨rfl, hd⟩ := Prod.mk.inj h
  exact ⟨p, he, hd⟩

theorem apply_keys (ho : t'.outKey = t.outKey) (hi : t'.inKey = t.inKey) (effect : Effect) :
    (apply t' effect).outKey = (apply t effect).outKey ∧
      (apply t' effect).inKey = (apply t effect).inKey := by
  unfold apply
  split_ifs
  · exact ⟨congrArg N.rekey ho, congrArg N.rekey hi⟩
  · exact ⟨ho, hi⟩

end Rnet.Transport.Codec
