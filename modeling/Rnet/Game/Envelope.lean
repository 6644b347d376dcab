import Rnet.Core.Basic

/-! # Game envelopes

The header a game runtime puts in front of every payload it gives to the transport. Application data
may carry a sequence, a tick and, on UDP, a sequence of the library; a control carries its kind and
nothing else. What one side encodes the other side decodes, under any limit the bytes fit. -/

namespace Rnet.Game.Envelope

open Rnet.Core Lib.BigEndian

/-- Length of an envelope header. -/
def headerLen : ℕ := 12

def application : UInt8 := 0

def hasSequence : UInt8 := 1
def hasTick : UInt8 := 2
def hasDatagramSequence : UInt8 := 4
def supportedFlags : UInt8 := hasSequence ||| hasTick ||| hasDatagramSequence

/-- Refusal of a malformed envelope. -/
def protocolError (message : String) : RnetError := ⟨.protocolError, message⟩

def tooLarge : RnetError := ⟨.messageTooLarge, "game envelope exceeds the configured limit"⟩

/-- Kinds of game controls. -/
inductive ControlKind
  | heartbeat | clockSync | resume | protocol
  deriving DecidableEq

namespace ControlKind

def toByte : ControlKind → UInt8
  | heartbeat => 1
  | clockSync => 2
  | resume => 3
  | protocol => 4

def ofByte (b : UInt8) : Result ControlKind :=
  if b = 1 then .ok heartbeat
  else if b = 2 then .ok clockSync
  else if b = 3 then .ok resume
  else if b = 4 then .ok protocol
  else .error (protocolError "game envelope kind is unsupported")

@[simp] theorem ofByte_toByte (k : ControlKind) : ofByte k.toByte = .ok k := by cases k <;> rfl

theorem toByte_ne_application (k : ControlKind) : k.toByte ≠ application := by cases k <;> decide

end ControlKind

/-- What an envelope carries. -/
inductive DecodedEnvelope
  | application (sequence tick datagramSequence : Option UInt32) (payload : Bytes)
  | control (kind : ControlKind) (payload : Bytes)
  deriving DecidableEq

def envelopeBytes (kind flags : UInt8) (sequence tick : UInt32) (datagramSequence : Option UInt32)
    (payload : Bytes) : Bytes :=
  let length := headerLen + if datagramSequence.isSome then 4 else 0
  [kind, flags] ++ (toBytes 2 length ++ (toBytes 4 sequence.toNat ++ (toBytes 4 tick.toNat ++
    ((datagramSequence.elim [] fun d => toBytes 4 d.toNat) ++ payload))))

/-- Encodes an envelope within the limit. -/
def encode (kind flags : UInt8) (sequence tick : UInt32) (datagramSequence : Option UInt32)
    (payload : Bytes) (maximumLen : ℕ) : Result Bytes :=
  let encoded := envelopeBytes kind flags sequence tick datagramSequence payload
  if maximumLen < encoded.length then .error tooLarge else .ok encoded

def metadataFlags (sequence tick : Bool) : UInt8 :=
  (if sequence then hasSequence else 0) ||| if tick then hasTick else 0

/-- Application data over TCP and KCP. -/
def encodeApplication (payload : Bytes) (sequence tick : Option UInt32) (maximumLen : ℕ) :
    Result Bytes :=
  encode application (metadataFlags sequence.isSome tick.isSome) (sequence.getD 0) (tick.getD 0)
    none payload maximumLen

/-- Application data over UDP. -/
def encodeUdpApplication (payload : Bytes) (sequence tick : Option UInt32)
    (datagramSequence : UInt32) (maximumLen : ℕ) : Result Bytes :=
  encode application (hasDatagramSequence ||| metadataFlags sequence.isSome tick.isSome)
    (sequence.getD 0) (tick.getD 0) (some datagramSequence) payload maximumLen

/-- A game control. -/
def encodeControl (kind : ControlKind) (payload : Bytes) (maximumLen : ℕ) : Result Bytes :=
  encode kind.toByte 0 0 0 none payload maximumLen

/-- The metadata of an application envelope: a value without its flag must be zero. -/
def decodeApplication (flags : UInt8) (sequence tick : UInt32) (datagramSequence : Option UInt32)
    (payload : Bytes) : Result DecodedEnvelope :=
  if flags &&& hasSequence = 0 ∧ sequence ≠ 0 then
    .error (protocolError "game sequence is set without its flag")
  else if flags &&& hasTick = 0 ∧ tick ≠ 0 then
    .error (protocolError "game tick is set without its flag")
  else
    .ok (.application (if flags &&& hasSequence = 0 then none else some sequence)
      (if flags &&& hasTick = 0 then none else some tick) datagramSequence payload)

def decodeControl (kind flags : UInt8) (sequence tick : UInt32) (payload : Bytes) :
    Result DecodedEnvelope :=
  if flags ≠ 0 ∨ sequence ≠ 0 ∨ tick ≠ 0 then
    .error (protocolError "game control contains application-only metadata")
  else (ControlKind.ofByte kind).map fun kind => .control kind payload

/-- Reads an envelope. -/
def decode (input : Bytes) (maximumLen : ℕ) : Result DecodedEnvelope :=
  if maximumLen < input.length then .error tooLarge
  else if input.length < headerLen then
    .error (protocolError "game envelope header is truncated")
  else
    let kind := input.getD 0 0
    let flags := input.getD 1 0
    if flags &&& ~~~supportedFlags ≠ 0 then
      .error (protocolError "game envelope contains unsupported flags")
    else
      let length := field input 2 2
      let extended := flags &&& hasDatagramSequence ≠ 0
      if length ≠ headerLen + (if extended then 4 else 0) ∨ input.length < length then
        .error (protocolError "game envelope header length is invalid")
      else if extended ∧ kind ≠ application then
        .error (protocolError "UDP sequence extension is invalid")
      else
        let sequence := UInt32.ofNat (field input 4 4)
        let tick := UInt32.ofNat (field input 8 4)
        let payload := input.drop length
        if kind = application then
          decodeApplication flags sequence tick
            (if extended then some (UInt32.ofNat (field input headerLen 4)) else none) payload
        else decodeControl kind flags sequence tick payload

/-! ### Round trips -/

section

variable {kind flags : UInt8} {sequence tick : UInt32} {datagramSequence : Option UInt32}
  {payload bytes : Bytes} {m : ℕ}

theorem encode_isOk_iff : (∃ b, encode kind flags sequence tick datagramSequence payload m = .ok b) ↔
    (envelopeBytes kind flags sequence tick datagramSequence payload).length ≤ m := by
  unfold encode
  dsimp only
  split_ifs with h
  · constructor
    · rintro ⟨b, hb⟩
      cases hb
    · intro hl
      exact absurd h (Nat.not_lt.mpr hl)
  · exact ⟨fun _ => Nat.not_lt.mp h, fun _ => ⟨_, rfl⟩⟩

theorem encode_eq_ok (h : encode kind flags sequence tick datagramSequence payload m = .ok bytes) :
    bytes = envelopeBytes kind flags sequence tick datagramSequence payload := by
  unfold encode at h
  dsimp only at h
  split_ifs at h
  exact (Except.ok.inj h).symm

theorem length_of_encode
    (h : encode kind flags sequence tick datagramSequence payload m = .ok bytes) :
    bytes.length ≤ m := by
  obtain ⟨hm, h⟩ := ok_of_check h
  cases h
  exact Nat.not_lt.mp hm

variable (kind flags sequence tick datagramSequence payload)

theorem length_envelopeBytes :
    (envelopeBytes kind flags sequence tick datagramSequence payload).length =
      headerLen + (if datagramSequence.isSome then 4 else 0) + payload.length := by
  rcases datagramSequence with - | d <;> simp [envelopeBytes, headerLen] <;> omega

theorem u32_lt (n : UInt32) : n.toNat < 256 ^ 4 := n.toNat_lt

theorem field_envelopeBytes :
    field (envelopeBytes kind flags sequence tick datagramSequence payload) 2 2 =
        headerLen + (if datagramSequence.isSome then 4 else 0) ∧
      field (envelopeBytes kind flags sequence tick datagramSequence payload) 4 4 =
        sequence.toNat ∧
      field (envelopeBytes kind flags sequence tick datagramSequence payload) 8 4 = tick.toNat := by
  have hh : headerLen + (if datagramSequence.isSome then 4 else 0) < 256 ^ 2 := by
    unfold headerLen; split_ifs <;> decide
  have hs := u32_lt sequence
  have ht := u32_lt tick
  simp (disch := omega) [envelopeBytes, field_cons, field_skip, field_toBytes_append]

theorem field_datagramSequence (d : UInt32) :
    field (envelopeBytes kind flags sequence tick (some d) payload) headerLen 4 = d.toNat := by
  have hd := u32_lt d
  simp (disch := omega) [envelopeBytes, headerLen, field_cons, field_skip, field_toBytes_append]

theorem drop_envelopeBytes :
    (envelopeBytes kind flags sequence tick datagramSequence payload).drop
      (headerLen + if datagramSequence.isSome then 4 else 0) = payload := by
  rcases datagramSequence with - | d <;> rfl

variable {kind flags sequence tick datagramSequence payload}

theorem decode_envelopeBytes (hfl : flags &&& ~~~supportedFlags = 0)
    (he : flags &&& hasDatagramSequence ≠ 0 ↔ datagramSequence.isSome = true)
    (hk : datagramSequence.isSome = true → kind = application)
    (hle : (envelopeBytes kind flags sequence tick datagramSequence payload).length ≤ m) :
    decode (envelopeBytes kind flags sequence tick datagramSequence payload) m =
      if kind = application then decodeApplication flags sequence tick datagramSequence payload
      else decodeControl kind flags sequence tick payload := by
  have hl := length_envelopeBytes kind flags sequence tick datagramSequence payload
  obtain ⟨hh, hse, ht⟩ :=
    field_envelopeBytes kind flags sequence tick datagramSequence payload
  have hdr := drop_envelopeBytes kind flags sequence tick datagramSequence payload
  have hf : (envelopeBytes kind flags sequence tick datagramSequence payload).getD 0 0 = kind :=
    rfl
  have hs : (envelopeBytes kind flags sequence tick datagramSequence payload).getD 1 0 = flags :=
    rfl
  have hd : (if datagramSequence.isSome = true then some (UInt32.ofNat (field
      (envelopeBytes kind flags sequence tick datagramSequence payload) headerLen 4)) else none) =
        datagramSequence := by
    rcases datagramSequence with - | d
    · rfl
    · rw [field_datagramSequence, UInt32.ofNat_toNat]
      rfl
  generalize envelopeBytes kind flags sequence tick datagramSequence payload = input at *
  unfold decode
  rw [if_neg (by omega), if_neg (by rw [hl]; omega)]
  simp only [hf, hs, hfl, he, hh, hse, ht, hdr, hd,
    UInt32.ofNat_toNat, ne_eq, not_true_eq_false, if_false, false_or]
  rw [if_neg (by rw [hl]; omega), if_neg fun h => h.2 (hk h.1)]

end

theorem decode_encodeControl (h : encodeControl kind payload m = .ok bytes) (hl : bytes.length ≤ m') :
    decode bytes m' = .ok (.control kind payload) := by
  rw [encode_eq_ok h] at hl ⊢
  rw [decode_envelopeBytes (by decide) (by decide) (fun h => by cases h) hl,
    if_neg kind.toByte_ne_application]
  unfold decodeControl
  rw [if_neg (by decide), ControlKind.ofByte_toByte]
  rfl

theorem metadataFlags_spec : ∀ extension ∈ [0, hasDatagramSequence], ∀ sequence tick : Bool,
    (extension ||| metadataFlags sequence tick) &&& ~~~supportedFlags = 0 ∧
      (extension ||| metadataFlags sequence tick) &&& hasDatagramSequence = extension ∧
      ((extension ||| metadataFlags sequence tick) &&& hasSequence = 0 ↔ sequence = false) ∧
      ((extension ||| metadataFlags sequence tick) &&& hasTick = 0 ↔ tick = false) := by
  intro extension h sequence tick
  simp only [List.mem_cons, List.not_mem_nil, or_false] at h
  rcases h with rfl | rfl
  all_goals cases sequence <;> cases tick <;> decide

theorem decodeApplication_metadata (extension : UInt8) (he : extension ∈ [0, hasDatagramSequence])
    (sequence tick datagramSequence : Option UInt32) (payload : Bytes) :
    decodeApplication (extension ||| metadataFlags sequence.isSome tick.isSome) (sequence.getD 0)
      (tick.getD 0) datagramSequence payload =
        .ok (.application sequence tick datagramSequence payload) := by
  obtain ⟨-, -, hs, ht⟩ := metadataFlags_spec extension he sequence.isSome tick.isSome
  unfold decodeApplication
  simp only [hs, ht]
  rcases sequence with - | n <;> rcases tick with - | k <;> simp

theorem decode_encodeApplication {sequence tick : Option UInt32}
    (h : encodeApplication payload sequence tick m = .ok bytes) (hl : bytes.length ≤ m') :
    decode bytes m' = .ok (.application sequence tick none payload) := by
  rw [encode_eq_ok h] at hl ⊢
  obtain ⟨hf, he, -⟩ := metadataFlags_spec 0 (by decide) sequence.isSome tick.isSome
  have hm := decodeApplication_metadata 0 (by decide) sequence tick none payload
  rw [UInt8.zero_or] at hf he hm
  rw [decode_envelopeBytes hf (by simp [he]) (fun h => by cases h) hl, if_pos rfl]
  exact hm

theorem decode_encodeUdpApplication {sequence tick : Option UInt32}
    (h : encodeUdpApplication payload sequence tick d m = .ok bytes)
    (hl : bytes.length ≤ m') :
    decode bytes m' = .ok (.application sequence tick (some d) payload) := by
  rw [encode_eq_ok h] at hl ⊢
  obtain ⟨hf, he, -⟩ :=
    metadataFlags_spec hasDatagramSequence (by decide) sequence.isSome tick.isSome
  have hs : hasDatagramSequence ≠ 0 := by decide
  rw [decode_envelopeBytes hf (by simp [he, hs]) (fun _ => rfl) hl, if_pos rfl]
  exact decodeApplication_metadata _ (by decide) sequence tick (some d) payload

def DecodedEnvelope.payload : DecodedEnvelope → Bytes
  | .application _ _ _ payload | .control _ payload => payload

/-! ### Canonical form -/

def DecodedEnvelope.encode (maximumLen : ℕ) : DecodedEnvelope → Result Bytes
  | .application sequence tick none payload =>
    encodeApplication payload sequence tick maximumLen
  | .application sequence tick (some d) payload =>
    encodeUdpApplication payload sequence tick d maximumLen
  | .control kind payload => encodeControl kind payload maximumLen

/-- The length of an envelope with its header. -/
def DecodedEnvelope.encodedLen : DecodedEnvelope → ℕ
  | .application _ _ datagramSequence payload =>
    headerLen + (if datagramSequence.isSome then 4 else 0) + payload.length
  | .control _ payload => headerLen + payload.length

theorem DecodedEnvelope.encode_isOk_iff (v : DecodedEnvelope) :
    (∃ b, v.encode m = .ok b) ↔ v.encodedLen ≤ m := by
  rcases v with ⟨s, t, - | d, p⟩ | ⟨k, p⟩
  all_goals
    refine Envelope.encode_isOk_iff.trans ?_
    rw [length_envelopeBytes]
    rfl

theorem ControlKind.toByte_of_ofByte (h : ofByte b = .ok k) : k.toByte = b := by
  unfold ofByte at h
  split_ifs at h <;> cases h <;> exact Eq.symm ‹_›

theorem toNat_field (input : Bytes) (i : ℕ) :
    (UInt32.ofNat (field input i 4)).toNat = field input i 4 :=
  UInt32.toNat_ofNat_of_lt (field_lt input i 4)

theorem flags_eq (flags : UInt8) (h : flags &&& ~~~supportedFlags = 0) :
    flags = (if flags &&& hasDatagramSequence ≠ 0 then hasDatagramSequence else 0) |||
      metadataFlags (flags &&& hasSequence ≠ 0) (flags &&& hasTick ≠ 0) := by
  have hall : ∀ n < 256, UInt8.ofNat n &&& ~~~supportedFlags = 0 → UInt8.ofNat n =
      (if UInt8.ofNat n &&& hasDatagramSequence ≠ 0 then hasDatagramSequence else 0) |||
        metadataFlags (UInt8.ofNat n &&& hasSequence ≠ 0) (UInt8.ofNat n &&& hasTick ≠ 0) := by
    decide +kernel
  have hf := hall flags.toNat flags.toNat_lt
  rw [UInt8.ofNat_toNat] at hf
  exact hf h

theorem envelopeBytes_read [Decidable e] (hl : field input 2 2 = headerLen + if e then 4 else 0)
    (hle : field input 2 2 ≤ input.length) :
    envelopeBytes (input.getD 0 0) (input.getD 1 0) (.ofNat (field input 4 4))
      (.ofNat (field input 8 4)) (if e then some (.ofNat (field input headerLen 4)) else none)
      (input.drop (field input 2 2)) = input := by
  have hh : 12 ≤ input.length := by unfold headerLen at hl; omega
  have hd : input.drop 12 = ((if e then some (UInt32.ofNat (field input headerLen 4)) else
      none).elim [] fun d => toBytes 4 d.toNat) ++ input.drop (field input 2 2) := by
    rw [hl]
    rw [hl] at hle
    split_ifs at hle ⊢
    · rw [Option.elim_some, toNat_field]
      exact drop_eq_field _ hle
    · rfl
  have hs : (if e then some (UInt32.ofNat (field input headerLen 4)) else none).isSome = true ↔ e := by
    split_ifs <;> simp [*]
  have hb : input = input.getD 0 0 :: input.getD 1 0 :: input.drop 2 := by
    rcases input with - | ⟨k, - | ⟨f, rest⟩⟩
    · cases hh
    · simp at hh
    · rfl
  unfold envelopeBytes
  simp only [hs]
  rw [← hd, ← hl, toNat_field, toNat_field, ← drop_eq_field _ hh, ← drop_eq_field _ (by omega),
    ← drop_eq_field _ (by omega)]
  exact hb.symm

/-- Metadata read by its flag keeps the flag and the value, zero or not. -/
theorem metadata_read {f : UInt8} {n : UInt32} (h : f = 0 → n = 0) :
    (if f = 0 then none else some n).isSome = decide (f ≠ 0) ∧
      (if f = 0 then none else some n).getD 0 = n := by
  split_ifs with hf
  · simp [hf, h hf]
  · simp [hf]

theorem encode_of_decode (h : decode input m = .ok v) : v.encode m = .ok input := by
  obtain ⟨hm, h⟩ := ok_of_check h
  obtain ⟨-, h⟩ := ok_of_check h
  obtain ⟨hf, h⟩ := ok_of_check h
  obtain ⟨hl, h⟩ := ok_of_check h
  obtain ⟨-, h⟩ := ok_of_check h
  simp only [not_or, not_not, not_lt] at hf hl hm
  have hb := envelopeBytes_read hl.1 hl.2
  have hfl := flags_eq _ hf
  have henc : ∀ kind flags s t d p, envelopeBytes kind flags s t d p = input →
      encode kind flags s t d p m = .ok input := by
    intro kind flags s t d p he
    unfold encode
    rw [he]
    exact if_neg (Nat.not_lt.mpr hm)
  split at h
  · rename_i hk
    rw [hk] at hb
    obtain ⟨hs, h⟩ := ok_of_check h
    obtain ⟨ht, h⟩ := ok_of_check h
    rw [not_and, not_not] at hs ht
    cases h
    obtain ⟨hse, hsv⟩ := metadata_read hs
    obtain ⟨hte, htv⟩ := metadata_read ht
    by_cases hd : input.getD 1 0 &&& hasDatagramSequence ≠ 0
    · rw [if_pos hd] at hb hfl ⊢
      refine henc _ _ _ _ _ _ ?_
      rw [hse, hte, hsv, htv, ← hfl]
      exact hb
    · rw [if_neg hd] at hb hfl ⊢
      rw [UInt8.zero_or] at hfl
      refine henc _ _ _ _ _ _ ?_
      rw [hse, hte, hsv, htv, ← hfl]
      exact hb
  · obtain ⟨hz, h⟩ := ok_of_check h
    simp only [not_or, not_not] at hz
    rcases hc : ControlKind.ofByte (input.getD 0 0) with e | k <;> rw [hc] at h <;> cases h
    refine henc _ _ _ _ _ _ ?_
    rw [ControlKind.toByte_of_ofByte hc]
    rw [hz.1, hz.2.1, hz.2.2] at hb
    exact hb

theorem length_of_decode (h : decode input m = .ok v) : v.payload.length ≤ input.length := by
  have he := encode_of_decode h
  rcases v with ⟨s, t, - | d, p⟩ | ⟨k, p⟩
  all_goals
    rw [encode_eq_ok he, length_envelopeBytes]
    exact Nat.le_add_left _ _

/-- **The envelope codec is canonical** under every limit, which bounds the envelope as a whole, and
no input is application data under one limit and a control under another. -/
theorem envelope_codec_canonical :
    (∀ m, Canonical (fun _ => True) (fun v => v.encodedLen ≤ m) (DecodedEnvelope.encode m)
      (decode · m)) ∧
      ∀ m m' input sequence tick d payload kind payload',
        decode input m = .ok (.application sequence tick d payload) →
          decode input m' ≠ .ok (.control kind payload') := by
  refine ⟨fun m => .of_iff (fun v => v.encode_isOk_iff) fun b v =>
    ⟨fun h => ⟨trivial, encode_of_decode h⟩, ?_⟩, ?_⟩
  · rintro ⟨-, h⟩
    have hl : b.length ≤ m := by
      rcases v with ⟨s, t, - | d, p⟩ | ⟨k, p⟩ <;> exact length_of_encode h
    rcases v with ⟨s, t, - | d, p⟩ | ⟨k, p⟩
    · exact decode_encodeApplication h hl
    · exact decode_encodeUdpApplication h hl
    · exact decode_encodeControl h hl
  · intro m m' input s t d p k p' ha hc
    -- the first byte is the kind of either
    have h0 : input.getD 0 0 = application := by
      rcases d with - | d <;> rw [encode_eq_ok (encode_of_decode ha)] <;> rfl
    have h1 : input.getD 0 0 = k.toByte := by
      rw [encode_eq_ok (encode_of_decode hc)]
      rfl
    exact k.toByte_ne_application (h1.symm.trans h0)

end Rnet.Game.Envelope
