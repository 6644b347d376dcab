import Rnet.Security.TagNoise
import Rnet.Transport.Sending
import Rnet.Transport.TcpSession

/-! # Which admitted messages a TCP session can carry

A send on a TCP session is admitted within the body limit. The writer puts the frame into a record
of its own, sealed or not, and the reader on the other side, with the same limits, undoes one layer
after the other. All limits on the way are derived from the body limit with room to spare, except
two that are fixed: the length of a Noise message and the length prefix of the stream. -/

namespace Rnet.Transport.TcpLimits

open Rnet.Core Lib.BigEndian Lib.FiniteMap Protocol Protocol.Framing Security.Cipher
open Protocol.Records (Record SecurityMode decodeRecord protectedBytes recordBytes
  protectedHeaderLen)
open Security.Controller Security.TagNoise Config State
open Session (messageEvent)
open Sending TcpSession

variable {N : Noise}

/-- Two ends between two records: the same limits, epoch and mode, and the receiver expects the
sender's next nonce under the sender's key. -/
structure Paired (s r : TcpState N) : Prop where
  config : r.shared.config = s.shared.config
  mode : r.controller.mode = s.controller.mode
  epoch : r.controller.epoch = s.controller.epoch
  epoch_le : s.controller.epoch ≤ u64Max
  key : r.transport.inKey = s.transport.outKey
  nonce : r.transport.receiveNonce = s.transport.sendNonce
  nonce_lt : s.transport.sendNonce < u64Max
  active : r.shared.sessionActive r.session = true

/-- The writer puts the frame on the stream; whatever follows it, the reader cuts off its record and
publishes the body under the correlation id. -/
def Transferred (turn : Turn) (s r : TcpState N) (frame : Bytes) (correlationId : UInt64)
    (payload : Bytes) : Prop :=
  ∃ t' wire encoded r',
    writeOutbound s.transport s.controller .data frame (maxPayload s.shared.config) =
      (t', .ok wire) ∧
    (∀ rest, takeRecord (maxPayload r.shared.config + 84) (wire ++ rest) =
      (rest, .ok (some encoded))) ∧
    receive turn r encoded = (r', .ok ()) ∧
    r'.shared.events = r.shared.events ++ [messageEvent r.endpoint r.session
      ⟨⟨version, 0, payload.length, correlationId⟩, payload⟩ (s.controller.mode = .encrypted)]

def Fits (mode : SecurityMode) (body : ℕ) : Prop :=
  match mode with
  | .encrypted => protectedHeaderLen + (headerLen + body) + tagLen ≤ maxMessageLen
  | .plaintext => Records.headerLen + (headerLen + body) ≤ u32Max

instance (mode : SecurityMode) (body : ℕ) : Decidable (Fits mode body) := by
  unfold Fits
  split <;> infer_instance

theorem writeOutbound_isOk_iff (laws : N.CipherLaws) {t : SecureTransport N}
    (hb : payload.length ≤ config.maxBodyLen) (hn : t.sendNonce < u64Max) :
    (∃ t' wire, writeOutbound t c .data (frameOf correlationId payload) (maxPayload config) =
      (t', .ok wire)) ↔ Fits c.mode payload.length := by
  have hwr := laws.write_isSome t.outKey t.sendNonce
    (protectedBytes ⟨.data, frameOf correlationId payload⟩)
  rw [Records.length_protectedBytes, length_frameOf] at hwr
  unfold writeOutbound Fits
  cases c.mode with
  | plaintext =>
    simp only [Prod.mk.injEq, writeWire_eq_ok, length_frameOf, maxPayload]
    constructor
    · rintro ⟨t', wire, -, -, hu, -⟩
      exact hu
    · intro hu
      exact ⟨t, _, rfl, by omega, hu, rfl⟩
  | encrypted =>
    simp only [writeProtected_eq_ok]
    constructor
    · rintro ⟨t', wire, -, -, -, -, cipher, hci, -⟩
      exact hwr.mp (by rw [hci]; rfl)
    intro hl
    obtain ⟨cipher, hci⟩ := Option.isSome_iff_exists.mp (hwr.mpr hl)
    have hc := laws.length_write hci
    rw [Records.length_protectedBytes, length_frameOf] at hc
    unfold maxMessageLen at hl
    refine ⟨_, _, ?_, ?_, hn, rfl, cipher, hci, writeWire_eq_ok.mpr ⟨?_, ?_, rfl⟩⟩
    · rw [length_frameOf]; unfold maxPayload; omega
    · rw [length_frameOf]; unfold u32Max; omega
    · simp only [hc, maxPayload, protectedHeaderLen, tagLen]; omega
    · simp only [hc, u32Max, Records.headerLen]; omega

theorem receive_of_frame (hr : turn.eventRoom = true)
    (ha : r.shared.sessionActive r.session = true)
    (hde : decodeRecord encoded (maxPayload r.shared.config + 64) = .ok record)
    (he : record.epoch = r.controller.epoch)
    (hm : record.kind = .protectedRecord → r.controller.mode = .encrypted)
    (ho : openRecord r record = (t', .ok ⟨.data, data⟩))
    (hf : decodeDatagram data r.shared.config.maxBodyLen = .ok frame) :
    ∃ r', receive turn r encoded = (r', .ok ()) ∧ r'.shared.events =
      r.shared.events ++
        [messageEvent r.endpoint r.session frame (record.kind = .protectedRecord)] := by
  have hd :=
    @dispatch_of_frame _ turn { r with transport := t' } record data frame hm hf
  unfold receive
  rw [hde]
  dsimp only
  rw [processInbound_of_open ha he ho, hd]
  refine ⟨_, rfl, ?_⟩
  simp [pushTcpEvent, messageEvent, hr, ha, Shared.publish]

theorem transferred_of_wire (laws : N.CipherLaws) {t' : SecureTransport N}
    (hro : turn.eventRoom = true) (paired : Paired s r)
    (hb : payload.length ≤ s.shared.config.maxBodyLen) (hma : s.shared.config.maxBodyLen ≤ u32Max)
    (hwi : writeOutbound s.transport s.controller .data (frameOf correlationId payload)
      (maxPayload s.shared.config) = (t', .ok wire)) :
    Transferred turn s r (frameOf correlationId payload) correlationId payload := by
  have hf := @decodeDatagram_frameOf correlationId payload _ hb hma
  have hl := length_frameOf correlationId payload
  -- from here on the frame is any data that decodes to the body
  generalize frameOf correlationId payload = data at hf hl hwi
  -- both modes end in one record that the reader cuts off, decodes and opens
  have key : ∀ record r₁, record.epoch = s.controller.epoch →
      (record.kind = .protectedRecord ↔ s.controller.mode = .encrypted) →
      record.payload.length ≤ maxPayload s.shared.config + 64 →
      Records.headerLen + record.payload.length ≤ u32Max →
      openRecord r record = (r₁, .ok ⟨.data, data⟩) →
      wire = framed (recordBytes record) →
      Transferred turn s r data correlationId payload := by
    intro record r₁ hep hk hp hu ho hw
    have hd := @Records.decodeRecord_recordBytes record (maxPayload r.shared.config + 64)
      (hep ▸ paired.epoch_le) (by rw [paired.config]; exact hp) (by omega)
    obtain ⟨r', hre, he⟩ := receive_of_frame hro paired.active hd
      (hep.trans paired.epoch.symm) (fun h => paired.mode.trans (hk.mp h)) ho
      (by rw [paired.config]; exact hf)
    simp only [hk] at he
    refine ⟨t', wire, recordBytes record, r', hwi, fun rest => ?_, hre, he⟩
    rw [hw]
    refine takeRecord_framed ?_ ?_ ?_
    · exact List.ne_nil_of_length_pos (by rw [Records.length_recordBytes]; simp [Records.headerLen])
    · rw [Records.length_recordBytes, paired.config]; unfold Records.headerLen; omega
    · rw [Records.length_recordBytes]; exact hu
  unfold writeOutbound at hwi
  split at hwi
  · contradiction
  · rename_i hm
    obtain ⟨-, -, hn, -, cipher, hc, hr⟩ := writeProtected_eq_ok.mp hwi
    obtain ⟨hp, hu, hw⟩ := writeWire_eq_ok.mp hr
    refine key ⟨.protectedRecord, s.controller.epoch, cipher⟩
      { r.transport with receiveNonce := r.transport.receiveNonce + 1 } rfl (by simp [hm])
      hp hu ?_ hw
    have hle : data.length ≤ u32Max := by
      have := laws.length_write hc
      rw [Records.length_protectedBytes] at this
      simp only at hu this
      omega
    exact decryptProtected_eq_ok laws hc paired.key paired.nonce hn
      (by rw [paired.config, hl]; unfold maxPayload; omega) hle
  · rename_i hm
    obtain ⟨-, hr⟩ := Prod.mk.inj hwi
    obtain ⟨hp, hu, hw⟩ := writeWire_eq_ok.mp hr
    refine key ⟨.plainData, s.controller.epoch, data⟩ r.transport rfl (by simp [hm])
      (by omega) hu ?_ hw
    simp only [openRecord, paired.mode, hm]

/-- **Transfer of an admitted message.** Between two paired ends with nonces left, a message that
was admitted arrives with its body and correlation id exactly if its body fits. -/
theorem transferred_iff_fits (laws : N.CipherLaws) {turn : Turn} {s r : TcpState N} {usage : Usage}
    {payload frame : Bytes} {correlationId : UInt64} {room : ℕ}
    (hv : s.shared.config.validate room = .ok ()) (paired : Paired s r)
    (hs : sendWithOptions s.shared usage s.session payload correlationId = .ok (.tcp, frame))
    (hr : turn.eventRoom = true) :
    Transferred turn s r frame correlationId payload ↔
      Fits s.controller.mode payload.length := by
  obtain ⟨rfl, hb, -, -⟩ := admitted_of_sendWithOptions hs
  rw [← writeOutbound_isOk_iff laws hb paired.nonce_lt]
  constructor
  · rintro ⟨t', wire, -, -, hwi, -⟩
    exact ⟨t', wire, hwi⟩
  rintro ⟨t', wire, hwi⟩
  exact transferred_of_wire laws hr paired hb
    (RuntimeConfig.limits_of_validate hv).body_le hwi

/-! ### Both sides of the limit -/

def established (role : Role) (out incoming : TagKey) : TcpState tagNoise where
  endpoint := 1
  session := 1
  transport := ⟨out, incoming, 0, 0⟩
  controller := .new role .encrypted 1
  commands := false
  rekey := .new .production 0
  deadline := none
  shared := { Shared.initial .production with
    sessions := (∅ : Table Handle SessionRoute).insert 1 ⟨1, .tcp, true, false, false, true⟩ }
  written := []

def clientEnd : TcpState tagNoise := established .client ⟨5, 9, 0⟩ ⟨5, 9, 1⟩

def serverEnd : TcpState tagNoise := established .server ⟨5, 9, 1⟩ ⟨5, 9, 0⟩

theorem paired_ends : Paired clientEnd serverEnd where
  config := rfl
  mode := rfl
  epoch := rfl
  epoch_le := by decide
  key := rfl
  nonce := rfl
  nonce_lt := by decide
  active := by decide

theorem transferred_iff_fits_ends :
    Transferred ⟨0, true, "", true⟩ clientEnd serverEnd (frameOf 6 [1, 2, 3]) 6 [1, 2, 3] :=
  (@transferred_iff_fits tagNoise cipherLaws_tagNoise ⟨0, true, "", true⟩ clientEnd serverEnd ⟨0, 0⟩
    [1, 2, 3] _ 6 3600000 (by decide) paired_ends (by decide +kernel) rfl).mpr (by decide)

theorem sendWithOptions_clientEnd (h : payload.length ≤ 1024 * 1024) :
    sendWithOptions clientEnd.shared ⟨0, 0⟩ 1 payload 6 = .ok (.tcp, frameOf 6 payload) := by
  have hl := length_frameOf 6 payload
  have he : encodeFrame 6 0 payload clientEnd.shared.config.maxBodyLen =
      .ok (frameOf 6 payload) :=
    encodeFrame_eq_ok_iff.mpr ⟨by decide, by decide, h, rfl⟩
  generalize frameOf 6 payload = frame at he hl
  have hr : sendingRoute clientEnd.shared 1 .data =
      .ok ⟨1, .tcp, true, false, false, true⟩ := by decide
  have hru : ¬ (!clientEnd.shared.running) = true := by decide
  have hf : ¬ exceedsTarget .tcp frame.length = true := nofun
  unfold headerLen at hl
  unfold sendWithOptions prepare
  rw [if_neg hru, he]
  dsimp only
  rw [if_neg hru, hr]
  dsimp only
  rw [if_neg hf, reserve_eq_ok.mpr ⟨by unfold u64Max; omega, ?_⟩]
  · rw [reserve_eq_ok.mpr ⟨by unfold u64Max; omega, ?_⟩]
    change 0 + frame.length ≤ 4 * 1024 * 1024
    omega
  · change 0 + frame.length ≤ 256 * 1024 * 1024
    omega

/-- With the default limits 65495 bytes are admitted on an encrypted session, and the writer fails
on them: frame, header and tag are one byte more than a Noise message takes. -/
theorem admitted_message_not_written :
    RuntimeConfig.production.validate 3600000 = .ok () ∧
      ∃ frame, sendWithOptions clientEnd.shared ⟨0, 0⟩ 1 (List.replicate 65495 0) 6 =
          .ok (.tcp, frame) ∧
        (writeOutbound clientEnd.transport clientEnd.controller .data frame
          (maxPayload .production)).2 = .error (mapSecurityError .crypto) := by
  have hb : (List.replicate 65495 (0 : UInt8)).length = 65495 := List.length_replicate ..
  refine ⟨by decide, _, sendWithOptions_clientEnd (by rw [hb]; decide), ?_⟩
  generalize List.replicate 65495 (0 : UInt8) = payload at hb
  have hl := length_frameOf 6 payload
  generalize frameOf 6 payload = frame at hl
  rw [hb] at hl
  change (writeProtected clientEnd.transport 1 .data frame _).2 = _
  rw [writeProtected_of_too_long cipherLaws_tagNoise (by rw [hl]; decide) (by rw [hl]; decide)
    (by rw [hl]; decide)]

end Rnet.Transport.TcpLimits
