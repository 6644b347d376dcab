import Rnet.Core.Basic

/-! # Joining with a range of versions

The metadata a client puts into the protected join payload: its protocol with the versions it
supports, a nonce that names the attempt, its ticket and, when it resumes, the resume ticket. The
server selects the highest common version. -/

namespace Rnet.Game.Join

open Rnet.Core Lib.BigEndian

/-- Protocol of a game and the versions it supports. -/
structure GameProtocol where
  protocolId : UInt64
  minVersion : UInt32
  maxVersion : UInt32
  buildId : UInt64
  capabilities : UInt64
  deriving DecidableEq

/-- A protocol with a nonempty range of versions. -/
def GameProtocol.isValid (p : GameProtocol) : Bool :=
  p.protocolId != 0 && p.minVersion != 0 && decide (p.minVersion ≤ p.maxVersion)

/-- Sixteen bytes that name a join attempt. -/
structure Nonce where
  bytes : Bytes
  length_eq : bytes.length = 16
  deriving DecidableEq

namespace Nonce

/-- The nonce at offset `i` of an input that is long enough. -/
def read (input : Bytes) (i : ℕ) : Nonce :=
  ⟨(input.drop i ++ List.replicate 16 0).take 16, by simp⟩

def zero : Nonce := ⟨List.replicate 16 0, by simp⟩

theorem read_append (front rest : Bytes) (nonce : Nonce) :
    read (front ++ (nonce.bytes ++ rest)) front.length = nonce := by
  obtain ⟨bytes, hl⟩ := nonce
  unfold read
  congr 1
  rw [List.drop_left, List.append_assoc, List.take_append_of_le_length hl.ge,
    List.take_of_length_le hl.le]

end Nonce

/-- Highest version both sides support. -/
def selectVersion (client server : GameProtocol) : Option UInt32 :=
  if client.isValid = false ∨ server.isValid = false ∨ client.protocolId ≠ server.protocolId then none
  else
    let lower := max client.minVersion server.minVersion
    let upper := min client.maxVersion server.maxVersion
    if lower ≤ upper then some upper else none

/-- First bytes of a join request. -/
def rangeMagic : Bytes := [0x52, 0x47, 0x56, 0x34]

/-- First bytes of one that resumes. -/
def rangeResumeMagic : Bytes := [0x52, 0x47, 0x52, 0x34]

/-- Length of a request without tickets. -/
def headerLen : ℕ := 54
/-- Length with the field for the resume ticket. -/
def rangeResumeHeaderLen : ℕ := 56

def maxTicketLen : ℕ := 65535

/-- Request of a client to join or to resume. -/
structure RangeJoinRequest where
  protocol : GameProtocol
  nonce : Nonce
  ticket : Bytes
  resumeTicket : Option Bytes
  deriving DecidableEq

/-- Refusal of a malformed request. -/
def invalidJoin : RnetError := ⟨.protocolError, "malformed game join metadata"⟩

def joinBytes (request : RangeJoinRequest) : Bytes :=
  (if request.resumeTicket.isSome then rangeResumeMagic else rangeMagic) ++
    (toBytes 8 request.protocol.protocolId.toNat ++ (toBytes 4 request.protocol.minVersion.toNat ++
    (toBytes 4 request.protocol.maxVersion.toNat ++ (toBytes 8 request.protocol.buildId.toNat ++
    (toBytes 8 request.protocol.capabilities.toNat ++ (request.nonce.bytes ++
    (toBytes 2 request.ticket.length ++
    ((request.resumeTicket.elim [] fun ticket => toBytes 2 ticket.length) ++
    (request.ticket ++ request.resumeTicket.getD [])))))))))

/-- `encode_range_inner`. -/
def encodeRange (request : RangeJoinRequest) (maximumLen : ℕ) : Result Bytes :=
  if request.protocol.isValid = false ∨ request.nonce = .zero then
    .error ⟨.invalidArgument, "invalid game protocol range or negotiation nonce"⟩
  else if maxTicketLen < request.ticket.length ∨
      (request.resumeTicket.any fun ticket => decide (maxTicketLen < ticket.length)) = true ∨
      maximumLen < (joinBytes request).length then
    .error ⟨.messageTooLarge, "range join exceeds the configured handshake limit"⟩
  else .ok (joinBytes request)

/-- Reads a request. -/
def decodeRange (input : Bytes) : Result RangeJoinRequest :=
  let resume := input.take 4 = rangeResumeMagic
  if input.length < headerLen ∨ (input.take 4 ≠ rangeMagic ∧ ¬ resume) then .error invalidJoin
  else
    let protocol : GameProtocol :=
      { protocolId := UInt64.ofNat (field input 4 8)
        minVersion := UInt32.ofNat (field input 12 4)
        maxVersion := UInt32.ofNat (field input 16 4)
        buildId := UInt64.ofNat (field input 20 8)
        capabilities := UInt64.ofNat (field input 28 8) }
    let nonce := Nonce.read input 36
    let ticketLen := field input 52 2
    if protocol.isValid = false ∨ nonce = .zero then .error invalidJoin
    else if resume ∧ input.length < rangeResumeHeaderLen then .error invalidJoin
    else
      let header := if resume then rangeResumeHeaderLen else headerLen
      let resumeLen := if resume then field input 54 2 else 0
      if (resume ∧ resumeLen = 0) ∨ input.length ≠ header + ticketLen + resumeLen then
        .error invalidJoin
      else
        .ok
          { protocol := protocol
            nonce := nonce
            ticket := (input.drop header).take ticketLen
            resumeTicket := if resume then some (input.drop (header + ticketLen)) else none }

/-! ### Round trip -/

/-- A request `encode_range` and `encode_range_resume` accept, up to the limit on its length. -/
structure RangeJoinRequest.WellFormed (r : RangeJoinRequest) : Prop where
  valid : r.protocol.isValid = true
  nonce : r.nonce ≠ .zero
  ticket : r.ticket.length ≤ maxTicketLen
  resume : ∀ ticket, r.resumeTicket = some ticket → ticket ≠ [] ∧ ticket.length ≤ maxTicketLen

theorem u64_lt (n : UInt64) : n.toNat < 256 ^ 8 := n.toNat_lt

theorem u32_lt (n : UInt32) : n.toNat < 256 ^ 4 := n.toNat_lt

theorem field_joinBytes (r : RangeJoinRequest) (hr : r.WellFormed) :
    field (joinBytes r) 4 8 = r.protocol.protocolId.toNat ∧
      field (joinBytes r) 12 4 = r.protocol.minVersion.toNat ∧
      field (joinBytes r) 16 4 = r.protocol.maxVersion.toNat ∧
      field (joinBytes r) 20 8 = r.protocol.buildId.toNat ∧
      field (joinBytes r) 28 8 = r.protocol.capabilities.toNat ∧
      field (joinBytes r) 52 2 = r.ticket.length ∧ Nonce.read (joinBytes r) 36 = r.nonce := by
  have hm : (if r.resumeTicket.isSome then rangeResumeMagic else rangeMagic).length = 4 := by
    split_ifs <;> rfl
  have hn := r.nonce.length_eq
  have ht : r.ticket.length < 256 ^ 2 := Nat.lt_succ_of_le hr.ticket
  unfold joinBytes
  generalize (if r.resumeTicket.isSome then rangeResumeMagic else rangeMagic) = first at *
  simp (disch := first | omega | exact u64_lt _ | exact u32_lt _) only [field_append_right, hm, hn,
    field_skip, field_toBytes_append, Nat.reduceSub, true_and]
  have hf := Nonce.read_append (first ++ (toBytes 8 r.protocol.protocolId.toNat ++
      (toBytes 4 r.protocol.minVersion.toNat ++ (toBytes 4 r.protocol.maxVersion.toNat ++
        (toBytes 8 r.protocol.buildId.toNat ++ toBytes 8 r.protocol.capabilities.toNat)))))
      (toBytes 2 r.ticket.length ++ ((r.resumeTicket.elim [] fun ticket => toBytes 2 ticket.length) ++
        (r.ticket ++ r.resumeTicket.getD []))) r.nonce
  simp only [List.length_append, length_toBytes, hm, List.append_assoc] at hf
  exact hf

theorem length_joinBytes (r : RangeJoinRequest) :
    (joinBytes r).length = headerLen + (if r.resumeTicket.isSome then 2 else 0) + r.ticket.length +
      (r.resumeTicket.getD []).length := by
  have hn := r.nonce.length_eq
  rcases hr : r.resumeTicket with - | ticket <;>
    simp [joinBytes, hr, hn, headerLen, rangeMagic, rangeResumeMagic] <;> omega

theorem take_joinBytes (r : RangeJoinRequest) :
    (joinBytes r).take 4 = if r.resumeTicket.isSome then rangeResumeMagic else rangeMagic := by
  have hm : (if r.resumeTicket.isSome then rangeResumeMagic else rangeMagic).length = 4 := by
    split_ifs <;> rfl
  rw [joinBytes, List.take_append_of_le_length (by omega), List.take_of_length_le (by omega)]

theorem drop_joinBytes (r : RangeJoinRequest) :
    (joinBytes r).drop (headerLen + if r.resumeTicket.isSome then 2 else 0) =
      r.ticket ++ r.resumeTicket.getD [] := by
  have hn := r.nonce.length_eq
  rcases hr : r.resumeTicket with - | ticket <;>
    simp (disch := simp [hn]) [joinBytes, hr, hn, headerLen, rangeMagic, rangeResumeMagic,
      List.drop_append, List.drop_of_length_le]

variable {r : RangeJoinRequest}

theorem field_resumeLen (resume : Bytes) (hr : r.resumeTicket = some resume)
    (hl : resume.length ≤ maxTicketLen) : field (joinBytes r) 54 2 = resume.length := by
  have hn := r.nonce.length_eq
  have hm : rangeResumeMagic.length = 4 := rfl
  simp only [joinBytes, hr, Option.isSome_some, if_true, Option.elim_some]
  have hlt : resume.length < 256 ^ 2 := Nat.lt_succ_of_le hl
  simp (disch := omega) only [field_append_right, hm, hn, field_skip, field_toBytes_append,
    Nat.reduceSub]

/-- **A join request is read back.** -/
theorem decodeRange_joinBytes (hr : r.WellFormed) : decodeRange (joinBytes r) = .ok r := by
  obtain ⟨hi, hmi, hm, hb, hc, hti, hn⟩ := field_joinBytes r hr
  have hl := length_joinBytes r
  have ht := take_joinBytes r
  have hd := drop_joinBytes r
  have hle := fun resume h => field_resumeLen resume h (hr.resume resume h).2
  have hne : rangeMagic ≠ rangeResumeMagic := by decide
  have hv : ¬ (r.protocol.isValid = false ∨ r.nonce = .zero) := by
    simp [hr.valid, hr.nonce]
  generalize joinBytes r = input at *
  unfold decodeRange
  simp only [hi, hmi, hm, hb, hc, hti, hn, UInt64.ofNat_toNat, UInt32.ofNat_toNat]
  obtain ⟨protocol, nonce, ticket, resumeTicket⟩ := r
  cases resumeTicket with
  | none =>
    simp only [Option.isSome_none, Bool.false_eq_true, if_false, Option.getD_none, List.length_nil,
      Nat.add_zero, List.append_nil] at hl ht hd
    rw [if_neg (by rw [ht]; simp; omega), if_neg hv]
    simp only [ht, hne, false_and, if_false, false_or, Nat.add_zero, hl, ne_eq,
      not_true_eq_false]
    rw [hd, List.take_length]
  | some resume =>
    obtain ⟨hni, -⟩ := hr.resume resume rfl
    have hp : resume.length ≠ 0 := fun h => hni (List.length_eq_zero_iff.mp h)
    have hh : headerLen + 2 = rangeResumeHeaderLen := rfl
    simp only [Option.isSome_some, if_true, Option.getD_some, hh] at hl ht hd
    rw [if_neg (by rw [ht]; simp; omega), if_neg hv, if_neg (by omega)]
    simp only [ht, if_true, true_and, hle resume rfl, hp, false_or, hl, ne_eq,
      not_true_eq_false, if_false]
    rw [hd, List.take_left, ← List.drop_drop, hd, List.drop_left]

/-! ### Canonical form -/

/-- `encode_range` of a fresh join and `encode_range_resume` of a resuming one. -/
def RangeJoinRequest.encode (request : RangeJoinRequest) (maximumLen : ℕ) : Result Bytes :=
  if request.resumeTicket = some [] then .error ⟨.invalidArgument, "resume ticket is empty"⟩
  else encodeRange request maximumLen

theorem Nonce.drop_eq_read (h : i + 16 ≤ input.length) :
    input.drop i = (read input i).bytes ++ input.drop (i + 16) := by
  have hb : (read input i).bytes = (input.drop i).take 16 :=
    List.take_append_of_le_length (by simp; omega)
  rw [hb, ← List.drop_drop, List.take_append_drop]

theorem encode_eq_ok :
    r.encode m = .ok b ↔ r.WellFormed ∧ (joinBytes r).length ≤ m ∧ b = joinBytes r := by
  unfold RangeJoinRequest.encode encodeRange
  constructor
  · intro h
    obtain ⟨hn, h⟩ := ok_of_check h
    obtain ⟨hv, h⟩ := ok_of_check h
    obtain ⟨hl, h⟩ := ok_of_check h
    cases h
    simp only [not_or, not_lt, Bool.not_eq_false, Bool.not_eq_true] at hv hl
    refine ⟨⟨hv.1, hv.2, hl.1, fun t ht => ?_⟩, hl.2.2, rfl⟩
    rw [ht] at hn hl
    exact ⟨fun h => hn (congrArg some h), by simpa using hl.2.1⟩
  · rintro ⟨hr, hl, rfl⟩
    rw [if_neg fun h => (hr.resume [] h).1 rfl, if_neg (by simp [hr.valid, hr.nonce]), if_neg]
    simp only [not_or, not_lt, Option.any_eq_true, decide_eq_true_eq, not_exists, not_and]
    exact ⟨hr.ticket, fun t ht => (hr.resume t ht).2, hl⟩

theorem bytes_of_decodeRange (h : decodeRange input = .ok r) :
    joinBytes r = input ∧ r.WellFormed := by
  obtain ⟨hm, h⟩ := ok_of_check h
  obtain ⟨hv, h⟩ := ok_of_check h
  obtain ⟨hr, h⟩ := ok_of_check h
  obtain ⟨hl, h⟩ := ok_of_check h
  simp only [not_or, not_and, not_not, not_lt, Bool.not_eq_false] at hm hv hr hl
  have hh : 54 ≤ input.length := hm.1
  have hlt := field_lt input 52 2
  have hlr := field_lt input 54 2
  have htake : input.take 4 ++ input.drop 4 = input := List.take_append_drop 4 input
  have h64 : ∀ i, (UInt64.ofNat (field input i 8)).toNat = field input i 8 :=
    fun i => UInt64.toNat_ofNat_of_lt (field_lt input i 8)
  have h32 : ∀ i, (UInt32.ofNat (field input i 4)).toNat = field input i 4 :=
    fun i => UInt32.toNat_ofNat_of_lt (field_lt input i 4)
  -- the fields up to the length of the ticket
  rw [drop_eq_field (w := 8) _ (by omega), drop_eq_field (w := 4) _ (by omega),
    drop_eq_field (w := 4) _ (by omega), drop_eq_field (w := 8) _ (by omega),
    drop_eq_field (w := 8) _ (by omega), Nonce.drop_eq_read (by omega),
    drop_eq_field (w := 2) _ (by omega)] at htake
  by_cases hs : input.take 4 = rangeResumeMagic
  · simp only [hs, if_true, forall_const] at h hr hl htake
    have hh' : 56 ≤ input.length := hr
    unfold rangeResumeHeaderLen at h hl
    cases h
    rw [drop_eq_field (w := 2) _ (by omega)] at htake
    have ht : ((input.drop 56).take (field input 52 2)).length = field input 52 2 := by simp; omega
    have he : (input.drop (56 + field input 52 2)).length = field input 54 2 := by simp; omega
    constructor
    · conv_rhs => rw [← htake]
      simp only [joinBytes, Option.isSome_some, if_true, Option.elim_some, Option.getD_some, h64, h32,
        ht, he]
      rw [← List.drop_drop, List.take_append_drop]
    · refine ⟨hv.1, hv.2, ?_, ?_⟩
      · exact ht.trans_le (Nat.le_of_lt_succ hlt)
      · rintro t ht
        cases ht
        exact ⟨fun h0 => hl.1 (by rw [← he, h0]; rfl), he.trans_le (Nat.le_of_lt_succ hlr)⟩
  · simp only [hs, if_false, Nat.add_zero] at h hl
    unfold headerLen at h hl
    cases h
    have hf : input.take 4 = rangeMagic := by
      by_contra hc
      exact hs (hm.2 hc)
    have ht : ((input.drop 54).take (field input 52 2)) = input.drop 54 :=
      List.take_of_length_le (by simp; omega)
    have he : (input.drop 54).length = field input 52 2 := by simp; omega
    constructor
    · conv_rhs => rw [← htake]
      simp only [joinBytes, Option.isSome_none, Option.elim_none, Option.getD_none, h64, h32,
        ht, he, hf, List.append_nil, List.nil_append]
      rfl
    · refine ⟨hv.1, hv.2, ?_, nofun⟩
      exact (ht ▸ he).trans_le (Nat.le_of_lt_succ hlt)

theorem length_of_decodeRange (h : decodeRange input = .ok r) :
    headerLen + r.ticket.length + (r.resumeTicket.elim 0 List.length) ≤ input.length := by
  rw [← (bytes_of_decodeRange h).1, length_joinBytes]
  rcases r.resumeTicket with - | t <;> simp

/-- **The join codec is canonical.** A well-formed request within the limit is encoded and read back;
an accepted input is the encoding of what it decodes to under every limit it fits; an input is the
encoding of one request; and the magic of an accepted input tells a fresh join from a resume. -/
theorem join_codec_canonical :
    (∀ m r, r.WellFormed → (joinBytes r).length ≤ m →
      ∃ b, r.encode m = .ok b ∧ decodeRange b = .ok r) ∧
    (∀ b r, decodeRange b = .ok r → r.WellFormed ∧ ∀ m, b.length ≤ m → r.encode m = .ok b) ∧
    (∀ m m' (r r' : RangeJoinRequest) b, r.encode m = .ok b → r'.encode m' = .ok b → r = r') ∧
    ∀ b r, decodeRange b = .ok r → (r.resumeTicket = none ↔ b.take 4 = rangeMagic) ∧
      (r.resumeTicket ≠ none ↔ b.take 4 = rangeResumeMagic) := by
  refine ⟨fun m r hr hl => ⟨_, encode_eq_ok.mpr ⟨hr, hl, rfl⟩, decodeRange_joinBytes hr⟩,
    fun b r h => ?_, fun m m' r r' b h h' => ?_, fun b r h => ?_⟩
  · obtain ⟨rfl, hr⟩ := bytes_of_decodeRange h
    exact ⟨hr, fun m hl => encode_eq_ok.mpr ⟨hr, hl, rfl⟩⟩
  · obtain ⟨hr, -, rfl⟩ := encode_eq_ok.mp h
    obtain ⟨hr', -, hb⟩ := encode_eq_ok.mp h'
    have hd := decodeRange_joinBytes hr
    rw [hb, decodeRange_joinBytes hr'] at hd
    exact (Except.ok.inj hd).symm
  · have hm : rangeMagic ≠ rangeResumeMagic := by decide
    rw [← (bytes_of_decodeRange h).1, take_joinBytes]
    cases r.resumeTicket <;> simp [hm, hm.symm]

end Rnet.Game.Join
