import Rnet.Transport.Joining

/-! # Which admitted messages a datagram session can carry

A send on a UDP or KCP session is admitted on the size of its frame. The worker then encodes the
frame under the session's mode and queues the record, with limits of its own: the protected message
is checked against the body limit although it carries a whole frame, Noise limits its messages, and
KCP limits segments and keeps a part of the budgets for controls. `Fits` is what these limits ask of
the body, and `delivered_iff_fits` that nothing else stands between admission and delivery. -/

namespace Rnet.Transport.DatagramLimits

open Rnet.Core Lib.BigEndian Protocol
open Protocol.Framing (encodeFrame frameOf length_frameOf)
open Protocol.Records Security.Cipher Security.Controller Security.TagNoise Config State Slots Codec
open Wire Process Sending Worker Joining

variable {N : Noise}

/-- Payload of the record that carries a frame of `len` bytes. -/
def recordPayloadLen (mode : SecurityMode) (len : ℕ) : ℕ :=
  match mode with
  | .plaintext => len
  | .encrypted => 8 + (protectedHeaderLen + len + tagLen)

def recordLen (mode : SecurityMode) (body : ℕ) : ℕ :=
  headerLen + recordPayloadLen mode (Framing.headerLen + body)

/-- The limits behind admission, for a body of `body` bytes. -/
structure Fits (c : RuntimeConfig) (kind : Transport) (mode : SecurityMode) (body : ℕ) : Prop where
  message : mode = .encrypted → Framing.headerLen + body ≤ c.maxBodyLen ∧
    protectedHeaderLen + (Framing.headerLen + body) + tagLen ≤ maxMessageLen
  queue : kind = .kcp → fragments c (recordLen mode body) < 128 ∧
    queuedBytesFor c (recordLen mode body) ≤ dataRuntimeLimit c ∧
    queuedBytesFor c (recordLen mode body) ≤ dataSessionLimit c

/-- The worker encodes the frame and the wire takes the record. -/
def Delivered (setup : Setup N) (call : Call N) (l : Local N) (t : DatagramTransport N)
    (c : SecurityController) (frame : Bytes) : Prop :=
  ∃ t' record, dataRecord t c frame l.shared.config.maxBodyLen = (t', .ok record) ∧
    (send setup call l record l.shared.config.maxDatagramSize).2 = .ok ()

/-- A wire with nothing queued: the engine of a KCP peer is as it was created, except that it may
have carried records before. -/
structure Idle (setup : Setup N) (l : Local N) : Prop where
  engine : setup.kind = .kcp → ∃ conv e queued, newEngine l.shared.config conv = .ok e ∧
    l.slot.engine = some { e with queued := queued }
  unused : l.kcpQueuedBytes = 0

/-! ### Encoding -/

theorem length_protectedRecord (laws : N.CipherLaws) {t t' : DatagramTransport N} {max : ℕ}
    (h : protectedRecord t epoch kind data max = (t', .ok r)) :
    r.payload.length = 8 + (protectedHeaderLen + data.length + tagLen) := by
  obtain ⟨-, -, -, sealed, hwr, -, rfl⟩ := protectedRecord_eq_ok.mp h
  simp only [List.length_append, length_toBytes, laws.length_write hwr, length_protectedBytes]

theorem length_dataRecord (laws : N.CipherLaws) {t t' : DatagramTransport N} {max : ℕ}
    (h : dataRecord t c data max = (t', .ok r)) :
    r.payload.length = recordPayloadLen c.mode data.length := by
  unfold dataRecord at h
  cases hm : c.mode with
  | plaintext =>
    rw [hm] at h
    cases h; rfl
  | encrypted =>
    rw [hm] at h
    exact length_protectedRecord laws h

theorem dataRecord_isOk_iff (laws : N.CipherLaws) {t : DatagramTransport N}
    {c : SecurityController} {data : Bytes} {max : ℕ} (hn : t.sendNonce + 1 ≤ u64Max) :
    (∃ t' r, dataRecord t c data max = (t', .ok r)) ↔
      (c.mode = .encrypted → data.length ≤ max ∧
        protectedHeaderLen + data.length + tagLen ≤ maxMessageLen) := by
  unfold dataRecord
  split <;> rename_i hmo
  · simp [hmo]
  simp only [hmo, forall_const]
  have hwr := laws.write_isSome t.outKey t.sendNonce (protectedBytes ⟨.data, data⟩)
  rw [length_protectedBytes] at hwr
  constructor
  · rintro ⟨t', r, h⟩
    obtain ⟨hm, -, -, sealed, hs, -⟩ := protectedRecord_eq_ok.mp h
    exact ⟨hm, hwr.mp (by rw [hs]; rfl)⟩
  · rintro ⟨hm, hl⟩
    obtain ⟨sealed, hs⟩ := Option.isSome_iff_exists.mp (hwr.mpr hl)
    have hu : data.length ≤ u32Max := by unfold maxMessageLen at hl; unfold u32Max; omega
    exact ⟨_, _, protectedRecord_eq_ok.mpr ⟨hm, hu, hn, sealed, hs, rfl, rfl⟩⟩

/-! ### Queueing -/

theorem dataSessionLimit_le (c : RuntimeConfig) :
    dataSessionLimit c ≤ c.maxSessionQueuedBytes := Nat.sub_le ..

theorem queueKcp_isOk_iff {call : Call N} {l : Local N} {bytes : Bytes} {conv : ℕ}
    {e : KcpEngine} {queued : List Bytes} (hn : newEngine l.shared.config conv = .ok e)
    (he : l.slot.engine = some { e with queued := queued }) (hu : l.kcpQueuedBytes = 0) :
    (queueKcp call l bytes false).2 = .ok () ↔
      fragments l.shared.config bytes.length < 128 ∧
        queuedBytesFor l.shared.config bytes.length ≤ dataRuntimeLimit l.shared.config ∧
        queuedBytesFor l.shared.config bytes.length ≤ dataSessionLimit l.shared.config := by
  have hs := dataSessionLimit_le l.shared.config
  unfold newEngine at hn
  split_ifs at hn
  cases hn
  unfold queueKcp engine
  simp only [he, hu, queuedBytes, runtimeLimit, sessionLimit, Bool.false_eq_true,
    if_false, Nat.zero_mul, Nat.zero_add]
  split_ifs with hb
  · simp only [false_iff]; omega
  unfold kcpSend
  simp only [Bool.false_eq_true, if_false, queuedBytes, Nat.zero_mul, Nat.zero_add]
  rw [if_neg (by omega)]
  split_ifs with hf
  · simp only [false_iff]; omega
  · simp only [true_iff]; omega

theorem le_of_fragments_lt (limits : c.Limits) (hn : newEngine c conv = .ok e)
    (h : fragments c len < 128) : len ≤ u32Max := by
  unfold newEngine at hn
  split_ifs at hn with hq hmt
  have hl := limits.datagram_le
  have hm : mss c = c.maxDatagramSize - 24 := rfl
  unfold fragments at h
  unfold u32Max
  split_ifs at h with ho
  · omega
  · rw [Nat.div_lt_iff_lt_mul (by omega)] at h
    omega

theorem send_isOk_iff {l : Local N} (limits : l.shared.config.Limits) (idle : Idle setup l)
    (hs : call.sendOk = true) :
    (send setup call l record l.shared.config.maxDatagramSize).2 = .ok () ↔
      if setup.kind = .kcp then
        fragments l.shared.config (headerLen + record.payload.length) < 128 ∧
          queuedBytesFor l.shared.config (headerLen + record.payload.length) ≤
            dataRuntimeLimit l.shared.config ∧
          queuedBytesFor l.shared.config (headerLen + record.payload.length) ≤
            dataSessionLimit l.shared.config
      else record.payload.length ≤ l.shared.config.maxDatagramSize := by
  have hd := limits.datagram_le
  unfold send
  split_ifs with hk
  · obtain ⟨conv, e, queued, hn, hen⟩ := idle.engine hk
    have hq := @queueKcp_isOk_iff N call l (recordBytes record) conv e queued hn hen
      idle.unused
    rw [length_recordBytes] at hq
    rw [← hq]
    split <;> rename_i hr
    · simp only [reduceCtorEq, false_iff]
      intro ho
      have hl := le_of_fragments_lt limits hn (hq.mp ho).1
      have he := (encodeRecord_eq_ok (r := record) (m := u32Max)).mpr
        ⟨by omega, by omega, rfl⟩
      rw [hr] at he
      cases he
    · rw [(encodeRecord_eq_ok.mp hr).2.2]
  · split <;> rename_i hr
    · simp only [reduceCtorEq, false_iff]
      intro hl
      have he := (encodeRecord_eq_ok (r := record) (m := l.shared.config.maxDatagramSize)).mpr
        ⟨hl, by unfold u32Max; omega, rfl⟩
      rw [hr] at he
      cases he
    · simp [sendTo, hs, (encodeRecord_eq_ok.mp hr).1]

theorem record_le_datagram {c : RuntimeConfig} (hf : 0 < len)
    (h : exceedsTarget (.udp peer (c.maxDatagramSize - encryptedUdpWireOverhead)) len = false) :
    recordPayloadLen mode len ≤ c.maxDatagramSize := by
  have hl : ¬ c.maxDatagramSize - encryptedUdpWireOverhead < len := of_decide_eq_false h
  unfold encryptedUdpWireOverhead at hl
  unfold recordPayloadLen protectedHeaderLen tagLen
  split <;> omega

/-- **Delivery of an admitted message.** On an idle session whose nonces are not exhausted, a
message that was admitted is encoded and taken by the wire exactly if its body fits. -/
theorem delivered_iff_fits (laws : N.CipherLaws) {setup : Setup N} {call : Call N} {l : Local N}
    {s : Shared} {usage : Usage} {session : Handle} {payload frame : Bytes} {correlationId : UInt64}
    {peer : SocketAddr} {t : DatagramTransport N} {c : SecurityController} {room : ℕ}
    (hv : l.shared.config.validate room = .ok ()) (hc : s.config = l.shared.config)
    (hse : sendWithOptions s usage session payload correlationId =
      .ok ((acceptedRoute setup s.config peer).target, frame))
    (idle : Idle setup l) (hs : call.sendOk = true) (hn : t.sendNonce + 1 ≤ u64Max) :
    Delivered setup call l t c frame ↔
      Fits l.shared.config setup.kind c.mode payload.length := by
  obtain ⟨rfl, -, -, ha⟩ := admitted_of_sendWithOptions hse
  have he := @dataRecord_isOk_iff N laws t c (frameOf correlationId payload)
    l.shared.config.maxBodyLen hn
  rw [length_frameOf] at he
  have hwi : ∀ {t' record},
      dataRecord t c (frameOf correlationId payload) l.shared.config.maxBodyLen = (t', .ok record) →
      ((send setup call l record l.shared.config.maxDatagramSize).2 = .ok () ↔
        (setup.kind = .kcp → fragments l.shared.config (recordLen c.mode payload.length) < 128 ∧
          queuedBytesFor l.shared.config (recordLen c.mode payload.length) ≤
            dataRuntimeLimit l.shared.config ∧
          queuedBytesFor l.shared.config (recordLen c.mode payload.length) ≤
            dataSessionLimit l.shared.config)) := by
    intro t' record hr
    have hl := length_dataRecord laws hr
    rw [length_frameOf] at hl
    rw [send_isOk_iff (RuntimeConfig.limits_of_validate hv) idle hs, hl]
    split_ifs with hk
    · simp only [hk, forall_const]; rfl
    simp only [hk, false_implies, iff_true]
    have hf := ha.target_fits
    rw [acceptedRoute, if_neg hk, hc] at hf
    exact record_le_datagram (by unfold Framing.headerLen; omega) hf
  constructor
  · rintro ⟨t', record, hr, ht⟩
    exact ⟨he.mp ⟨t', record, hr⟩, (hwi hr).mp ht⟩
  rintro ⟨hm, hq⟩
  obtain ⟨t', record, hr⟩ := he.mpr hm
  exact ⟨t', record, hr, (hwi hr).mpr hq⟩

def quiescent : Endpoint tagNoise :=
  step (server .kcp) (joined .kcp .production)
    (.datagram (calm home 1 (9 : UInt64)) [] ⟨.ok (), .ok (), 0, false, []⟩)

theorem idle_quiescent : Idle (server .kcp) (quiescent.view home) where
  engine := fun _ => ⟨1, ⟨1, 0, false, []⟩,
    ((quiescent.slot home).engine.map KcpEngine.queued).getD [], by decide +kernel,
    by decide +kernel⟩
  unused := by decide +kernel

theorem delivered_iff_fits_quiescent :
    Delivered (server .kcp) (calm home 2 (9 : UInt64)) (quiescent.view home)
      ⟨⟨5, 9, 1⟩, ⟨5, 9, 0⟩, 1, .empty⟩ (.new .server .encrypted 1) (frameOf 6 [1, 2, 3]) := by
  refine (@delivered_iff_fits tagNoise cipherLaws_tagNoise _ _ _ quiescent.shared ⟨0, 0⟩ 1
    [1, 2, 3] _ 6 home _ _ 3600000 ?_ ?_ ?_ idle_quiescent ?_ ?_).mpr ⟨?_, ?_⟩ <;> decide +kernel

def tight : RuntimeConfig := { RuntimeConfig.production with maxBodyLen := 10 }

/-- Ten bytes are admitted on an encrypted session with that limit, and end it: the worker checks
the frame of thirty bytes against the body limit. -/
theorem admitted_message_ends_session :
    tight.validate 3600000 = .ok () ∧
      (joined .udp tight).shared.sessionActive 1 = true ∧
      sendWithOptions (joined .udp tight).shared ⟨0, 0⟩ 1 (List.replicate 10 0) 6 =
        .ok ((acceptedRoute (server .udp) tight home).target, frameOf 6 (List.replicate 10 0)) ∧
      (dataRecord ⟨⟨5, 9, 1⟩, ⟨5, 9, 0⟩, 1, .empty⟩ (.new .server .encrypted 1)
        (frameOf 6 (List.replicate 10 0)) tight.maxBodyLen : DatagramTransport tagNoise × _).2 =
          .error ⟨.messageTooLarge, "security record payload exceeds configured limit"⟩ ∧
      ((machine (server .udp)).run (joined .udp tight)
        [.prepareSend ⟨0, 0⟩ 1 (frameOf 6 (List.replicate 10 0)) .data none, .offer 0,
          .outbound (calm home 1 (9 : UInt64))]).shared.sessionActive 1 = false := by
  decide +kernel

end Rnet.Transport.DatagramLimits
