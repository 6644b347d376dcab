import Rnet.Security.Cipher

/-! # A reference instance of the Noise parameter

The laws that results assume of the Noise library are consistent: `tagNoise` satisfies them. A
ciphertext is the plaintext followed by a tag that spells the key and the nonce, and a handshake
message carries the seeds and identities in the clear. It protects nothing and computes quickly,
which makes it the instance on which concrete runs are evaluated. -/

namespace Rnet.Security.TagNoise

open Rnet.Core Lib.BigEndian Cipher

/-- The seeds of the handshake a key comes from, as far as a tag has room for them, and its generation
and direction. -/
structure TagKey where
  initiator : UInt16
  responder : UInt16
  generation : UInt32
  deriving DecidableEq

def tag (k : TagKey) (nonce : ℕ) : Bytes :=
  toBytes 2 k.initiator.toNat ++ (toBytes 2 k.responder.toNat ++
    (toBytes 4 k.generation.toNat ++ toBytes 8 nonce))

@[simp] theorem length_tag (k : TagKey) (nonce : ℕ) : (tag k nonce).length = tagLen := by
  simp [tag, tagLen]

/-- Appends the tag to a message that leaves room for it. -/
def sealTagged (k : TagKey) (nonce : ℕ) (plaintext : Bytes) : Option Bytes :=
  if plaintext.length + tagLen ≤ maxMessageLen then some (plaintext ++ tag k nonce) else none

def openTagged (k : TagKey) (nonce : ℕ) (ciphertext : Bytes) : Option Bytes :=
  let len := ciphertext.length - tagLen
  if ciphertext.drop len = tag k nonce then some (ciphertext.take len) else none

/-- The instance: identities and seeds are machine words, public keys and ephemeral keys spell
them. -/
def tagNoise : Noise where
  Key := TagKey
  Identity := UInt64
  Seed := UInt64
  publicKey i := toBytes 32 i.toNat
  first _ s := toBytes 32 s.toNat
  readFirst m := 32 ≤ m.length
  response j r m := toBytes 32 r.toNat ++ (toBytes 32 j.toNat ++ m.take 32)
  readResponse _ s m :=
    if m.drop 64 = toBytes 32 s.toNat then some ((m.drop 32).take 32) else none
  finish i _ m join :=
    if join.length + 64 ≤ maxMessageLen then
      some (toBytes 32 i.toNat ++ (m.take 32 ++ join)) else none
  readFinish _ r _ m :=
    if (m.drop 32).take 32 = toBytes 32 r.toNat then some (m.drop 64, m.take 32) else none
  initiatorKeys _ s m :=
    (⟨s.toUInt16, .ofNat (field m 0 32), 0⟩, ⟨s.toUInt16, .ofNat (field m 0 32), 1⟩)
  responderKeys _ r m _ :=
    (⟨.ofNat (field m 0 32), r.toUInt16, 1⟩, ⟨.ofNat (field m 0 32), r.toUInt16, 0⟩)
  write := sealTagged
  read := openTagged
  rekey k := { k with generation := k.generation + 2 }

theorem openTagged_sealTagged (h : sealTagged k nonce p = some c) :
    openTagged k nonce c = some p := by
  unfold sealTagged at h
  split_ifs at h
  cases h
  simp [openTagged]

theorem cipherLaws_tagNoise : tagNoise.CipherLaws where
  write_isSome k n p := by
    change (sealTagged k n p).isSome ↔ _
    unfold sealTagged
    split_ifs with h <;> simp [h]
  length_write := by
    intro k n p c h
    change sealTagged k n p = some c at h
    unfold sealTagged at h
    split_ifs at h
    cases h
    rw [List.length_append]
    exact congrArg (p.length + ·) (length_tag k n)
  read_write h := openTagged_sealTagged h

theorem handshakeSizes_tagNoise : tagNoise.HandshakeSizes where
  length_publicKey _ := length_toBytes 32 _
  length_first _ _ := length_toBytes 32 _
  length_response _ _ m h := by
    have hm : 32 ≤ m.length := of_decide_eq_true h
    change (toBytes 32 _ ++ (toBytes 32 _ ++ m.take 32)).length = _
    rw [List.length_append, List.length_append, length_toBytes, length_toBytes, List.length_take]
    omega
  length_finish := by
    intro i s m k join f hr h
    have hm : 32 ≤ m.length := by
      by_contra hs
      simp only [tagNoise, Option.ite_none_right_eq_some] at hr
      have := congrArg List.length hr.1
      rw [List.length_drop, length_toBytes] at this
      omega
    simp only [tagNoise, Option.ite_none_right_eq_some] at h
    rw [← Option.some.inj h.2, List.length_append, List.length_append, length_toBytes, List.length_take]
    omega

theorem toBytes_append_inj (h : n < 256 ^ w) (h' : n' < 256 ^ w)
    (he : toBytes w n ++ a = toBytes w n' ++ b) : n = n' ∧ a = b := by
  obtain ⟨hh, ht⟩ := List.append_inj he (by rw [length_toBytes, length_toBytes])
  refine ⟨?_, ht⟩
  rw [← ofBytes_toBytes h, hh, ofBytes_toBytes h']

theorem tag_inj (hn : n ≤ u64Max) (hn' : n' ≤ u64Max) (h : tag k n = tag k' n') :
    k = k' ∧ n = n' := by
  obtain ⟨hi, h⟩ := toBytes_append_inj k.initiator.toNat_lt k'.initiator.toNat_lt h
  obtain ⟨hr, h⟩ := toBytes_append_inj k.responder.toNat_lt k'.responder.toNat_lt h
  obtain ⟨hg, h⟩ := toBytes_append_inj k.generation.toNat_lt k'.generation.toNat_lt h
  have hno : n = n' := by
    unfold u64Max at hn hn'
    rw [← ofBytes_toBytes (show n < 256 ^ 8 by omega), h, ofBytes_toBytes (by omega)]
  refine ⟨?_, hno⟩
  obtain ⟨i, r, g⟩ := k
  obtain ⟨i', r', g'⟩ := k'
  rw [UInt16.toNat_inj] at hi hr
  rw [UInt32.toNat_inj] at hg
  simp only at hi hr hg
  rw [hi, hr, hg]

theorem ideal_tagNoise : tagNoise.Ideal where
  read_sealed := by
    intro k k' n n' p p' c hn hn' hwr hr
    change sealTagged k n p = some c at hwr
    change openTagged k' n' c = some p' at hr
    unfold sealTagged at hwr
    split_ifs at hwr
    cases hwr
    have hl : (p ++ tag k n).length - tagLen = p.length := by
      rw [List.length_append, show (tag k n).length = tagLen from length_tag k n,
        Nat.add_sub_cancel]
    simp only [openTagged, hl, List.drop_left, List.take_left] at hr
    split_ifs at hr with ht
    obtain ⟨hk, hn⟩ := tag_inj hn hn' ht
    exact ⟨hk.symm, hn.symm, (Option.some.inj hr).symm⟩

end Rnet.Security.TagNoise
