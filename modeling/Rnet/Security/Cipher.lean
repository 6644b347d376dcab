import Rnet.Core.Basic
import Mathlib.Data.BitVec

/-! # Transport ciphers over the Noise library

The cryptographic library is a parameter: `Noise` lists what the source asks of it, as pure
functions of the local identity, the randomness drawn for a handshake and the messages exchanged.
Nothing is assumed about these functions here; `CipherLaws` states the documented behaviour that
results name as a hypothesis when they rely on it.

On top of the parameter stand the two transports of the source: `SecureTransport` for ordered
records, where message `i` of a direction is sealed under nonce `i`, and `DatagramTransport` with
explicit nonces and a replay window of 64 positions. -/

namespace Rnet.Security.Cipher

open Rnet.Core Lib.BigEndian

/-- The Noise XX library as the security layer uses it. -/
structure Noise where
  /-- a symmetric key of one direction -/
  Key : Type
  /-- a static key pair -/
  Identity : Type
  /-- the randomness drawn for one handshake -/
  Seed : Type
  /-- the public half of an identity -/
  publicKey : Identity → Bytes
  /-- first message of an initiator -/
  first : Identity → Seed → Bytes
  /-- whether a responder can read a first message; it is not authenticated -/
  readFirst : Bytes → Bool
  /-- second message, after the first message that was read -/
  response : Identity → Seed → Bytes → Bytes
  /-- the responder's public key, if the second message answers the initiator's first -/
  readResponse : Identity → Seed → Bytes → Option Bytes
  /-- third message, after the second message that was read, with the join payload -/
  finish : Identity → Seed → Bytes → Bytes → Option Bytes
  /-- join payload and initiator's public key, if the third message completes the handshake -/
  readFinish : Identity → Seed → Bytes → Bytes → Option (Bytes × Bytes)
  /-- outgoing and incoming key of the initiator after the second message -/
  initiatorKeys : Identity → Seed → Bytes → Key × Key
  /-- outgoing and incoming key of the responder after the first and third message -/
  responderKeys : Identity → Seed → Bytes → Bytes → Key × Key
  /-- authenticated encryption under a nonce -/
  write : Key → ℕ → Bytes → Option Bytes
  /-- authenticated decryption under a nonce -/
  read : Key → ℕ → Bytes → Option Bytes
  /-- the key after a rekey -/
  rekey : Key → Key
  [decKey : DecidableEq Key]
  [decIdentity : DecidableEq Identity]
  [decSeed : DecidableEq Seed]

attribute [instance] Noise.decKey Noise.decIdentity Noise.decSeed

def maxMessageLen : ℕ := 65535

def tagLen : ℕ := 16

/-- Documented behaviour of the transport ciphers. -/
structure Noise.CipherLaws (N : Noise) : Prop where
  /-- a message is rejected exactly when plaintext and tag exceed the message limit -/
  write_isSome : ∀ k n p, (N.write k n p).isSome ↔ p.length + tagLen ≤ maxMessageLen
  /-- a ciphertext is its plaintext and a tag -/
  length_write : ∀ {k n p c}, N.write k n p = some c → c.length = p.length + tagLen
  /-- the same key and nonce recover the plaintext -/
  read_write : ∀ {k n p c}, N.write k n p = some c → N.read k n c = some p

/-- Documented sizes of keys and handshake messages: a static key; an ephemeral key; an ephemeral key,
a sealed static key and a tag; a sealed static key and the sealed join payload. -/
structure Noise.HandshakeSizes (N : Noise) : Prop where
  length_publicKey : ∀ i, (N.publicKey i).length = 32
  length_first : ∀ i s, (N.first i s).length = 32
  length_response : ∀ i s m, N.readFirst m = true → (N.response i s m).length = 32 + 48 + 16
  length_finish : ∀ {i s m k join f}, N.readResponse i s m = some k →
    N.finish i s m join = some f → f.length = 48 + 16 + join.length

/-- An ideal cipher: a ciphertext opens only under the key and nonce it was sealed with. -/
structure Noise.Ideal (N : Noise) : Prop where
  read_sealed : ∀ {k k' n n' p p' c}, n ≤ u64Max → n' ≤ u64Max → N.write k n p = some c →
    N.read k' n' c = some p' → k' = k ∧ n' = n ∧ p' = p

/-- Errors of the security layer. -/
inductive SecurityError
  | peerKeyMismatch | invalidState | crypto | replayDetected
  deriving DecidableEq

/-- Status and text the runtime reports for them. -/
def mapSecurityError : SecurityError → RnetError
  | .peerKeyMismatch => ⟨.peerKeyMismatch, "peer key does not match the pinned key"⟩
  | .invalidState => ⟨.handshakeFailed, "invalid handshake state"⟩
  | .crypto => ⟨.cryptoError, "cryptographic operation failed"⟩
  | .replayDetected =>
    ⟨.replayDetected, "datagram nonce was already received or is outside the replay window"⟩

/-! ### Replay window -/

/-- The highest accepted nonce and which of the 64 nonces up to it were accepted. -/
structure ReplayWindow where
  highest : Option ℕ
  bitmap : BitVec 64
  deriving DecidableEq

namespace ReplayWindow

def empty : ReplayWindow := ⟨none, 0⟩

/-- `contains`: already received, or too old to tell. -/
def contains (w : ReplayWindow) (nonce : ℕ) : Bool :=
  match w.highest with
  | none => false
  | some highest =>
    if highest < nonce then false
    else 64 ≤ highest - nonce || w.bitmap &&& (1#64 <<< (highest - nonce)) != 0

/-- Accepts a nonce once, unless it fell behind the window. -/
def insert (w : ReplayWindow) (nonce : ℕ) : ReplayWindow × Except SecurityError Unit :=
  match w.highest with
  | none => (⟨some nonce, 1⟩, .ok ())
  | some highest =>
    if highest < nonce then
      (⟨some nonce, if 64 ≤ nonce - highest then 1 else (w.bitmap <<< (nonce - highest)) ||| 1⟩,
        .ok ())
    else if 64 ≤ highest - nonce || w.bitmap &&& (1#64 <<< (highest - nonce)) != 0 then
      (w, .error .replayDetected)
    else (⟨some highest, w.bitmap ||| (1#64 <<< (highest - nonce))⟩, .ok ())

variable {w : ReplayWindow} {nonce : ℕ}

theorem insert_of_not_contains (h : w.contains nonce = false) :
    ∃ w', w.insert nonce = (w', .ok ()) := by
  unfold contains at h
  unfold insert
  split at h
  · exact ⟨_, rfl⟩
  rename_i highest _
  by_cases h1 : highest < nonce
  · exact ⟨_, if_pos h1⟩
  rw [if_neg h1] at h ⊢
  rw [if_neg (Bool.not_eq_true _ ▸ h)]
  exact ⟨_, rfl⟩

theorem highest_insert (h : w.insert nonce = (w', r)) (hw : ∀ n, w.highest = some n → n < b)
    (hn : nonce < b) : ∀ n, w'.highest = some n → n < b := by
  unfold insert at h
  split at h
  · cases h
    intro n hn'
    cases hn'; exact hn
  · rename_i highest he
    split_ifs at h <;> cases h <;> intro n hn'
    · cases hn'; exact hn
    · cases hn'; exact hn
    · exact hw n hn'
    · cases hn'; exact hw _ he

theorem not_contains_of_above (h : ∀ n, w.highest = some n → n < nonce) :
    w.contains nonce = false := by
  unfold contains
  split
  · rfl
  · rename_i highest he
    rw [if_pos (h _ he)]

end ReplayWindow

/-! ### Datagram transport -/

/-- Authenticated datagrams with explicit nonces. -/
structure DatagramTransport (N : Noise) where
  outKey : N.Key
  inKey : N.Key
  sendNonce : ℕ
  replay : ReplayWindow
  deriving DecidableEq

namespace DatagramTransport

variable {N : Noise}

variable (t : DatagramTransport N)

/-- A transport as a finished handshake leaves it. -/
def ofKeys (keys : N.Key × N.Key) : DatagramTransport N := ⟨keys.1, keys.2, 0, .empty⟩

/-- `rekey_outgoing`: the next key with a fresh nonce space. -/
def rekeyOutgoing : DatagramTransport N :=
  { t with outKey := N.rekey t.outKey, sendNonce := 0 }

/-- `rekey_incoming`: the next key with a fresh replay window. -/
def rekeyIncoming : DatagramTransport N :=
  { t with inKey := N.rekey t.inKey, replay := .empty }

/-- `encrypt`: the nonce is spent even when the cipher then fails. -/
def encrypt (plaintext : Bytes) : DatagramTransport N × Except SecurityError Bytes :=
  if t.sendNonce + 1 ≤ u64Max then
    match N.write t.outKey t.sendNonce plaintext with
    | none => ({ t with sendNonce := t.sendNonce + 1 }, .error .crypto)
    | some c => ({ t with sendNonce := t.sendNonce + 1 }, .ok (toBytes 8 t.sendNonce ++ c))
  else (t, .error .invalidState)

/-- `decrypt`: only an authenticated record moves the replay window. -/
def decrypt (record : Bytes) : DatagramTransport N × Except SecurityError Bytes :=
  if record.length < 24 then (t, .error .crypto)
  else if t.replay.contains (field record 0 8) then (t, .error .replayDetected)
  else
    match N.read t.inKey (field record 0 8) (record.drop 8) with
    | none => (t, .error .crypto)
    | some plaintext =>
      match t.replay.insert (field record 0 8) with
      | (w, .error e) => ({ t with replay := w }, .error e)
      | (w, .ok ()) => ({ t with replay := w }, .ok plaintext)

theorem encrypt_eq_ok {t t' : DatagramTransport N} {p out : Bytes} :
    t.encrypt p = (t', .ok out) ↔ t.sendNonce + 1 ≤ u64Max ∧
      ∃ c, N.write t.outKey t.sendNonce p = some c ∧
        t' = { t with sendNonce := t.sendNonce + 1 } ∧ out = toBytes 8 t.sendNonce ++ c := by
  unfold encrypt
  split_ifs with h
  · split
    · rename_i hw; simp [hw]
    rename_i c hw
    simp only [Prod.mk.injEq, Except.ok.injEq, h, hw, Option.some.injEq, true_and]
    constructor
    · rintro ⟨rfl, rfl⟩; exact ⟨c, rfl, rfl, rfl⟩
    · rintro ⟨_, rfl, rfl, rfl⟩; exact ⟨rfl, rfl⟩
  · simp [h]

/-- A datagram is opened exactly when it is long enough, its nonce is new and the cipher
authenticates it; only the replay window changes. -/
theorem decrypt_eq_ok {t t' : DatagramTransport N} {record p : Bytes} :
    t.decrypt record = (t', .ok p) ↔ 24 ≤ record.length ∧
      t.replay.contains (field record 0 8) = false ∧
      N.read t.inKey (field record 0 8) (record.drop 8) = some p ∧
      t' = { t with replay := (t.replay.insert (field record 0 8)).1 } := by
  unfold decrypt
  split_ifs with h1 h2
  · simp only [Prod.mk.injEq, reduceCtorEq, and_false, false_iff]; omega
  · simp [h2]
  simp only [Bool.not_eq_true] at h2
  obtain ⟨w, hw⟩ := ReplayWindow.insert_of_not_contains h2
  rw [hw]
  split
  · rename_i hr; simp [hr]
  rename_i q hr
  simp only [Prod.mk.injEq, Except.ok.injEq, h2, hr, Option.some.injEq, true_and]
  constructor
  · rintro ⟨rfl, rfl⟩; exact ⟨by omega, rfl, rfl⟩
  · rintro ⟨-, rfl, rfl⟩; exact ⟨rfl, rfl⟩

theorem decrypt_keys (record : Bytes) :
    (t.decrypt record).1.outKey = t.outKey ∧ (t.decrypt record).1.inKey = t.inKey ∧
      (t.decrypt record).1.sendNonce = t.sendNonce := by
  unfold decrypt
  split_ifs
  · exact ⟨rfl, rfl, rfl⟩
  · exact ⟨rfl, rfl, rfl⟩
  split
  · exact ⟨rfl, rfl, rfl⟩
  · split <;> exact ⟨rfl, rfl, rfl⟩

theorem encrypt_keys (p : Bytes) :
    (t.encrypt p).1.outKey = t.outKey ∧ (t.encrypt p).1.inKey = t.inKey ∧
      (t.encrypt p).1.replay = t.replay := by
  unfold encrypt
  split_ifs
  · split <;> exact ⟨rfl, rfl, rfl⟩
  · exact ⟨rfl, rfl, rfl⟩

end DatagramTransport

/-! ### Ordered transport -/

/-- Authenticated records for ordered delivery; the nonces are implicit counters. -/
structure SecureTransport (N : Noise) where
  outKey : N.Key
  inKey : N.Key
  sendNonce : ℕ
  receiveNonce : ℕ
  deriving DecidableEq

namespace SecureTransport

variable {N : Noise}

variable (t : SecureTransport N)

/-- `rekey_outgoing`: the nonce is not reset. -/
def rekeyOutgoing : SecureTransport N :=
  { t with outKey := N.rekey t.outKey }

/-- `rekey_incoming`: the nonce is not reset. -/
def rekeyIncoming : SecureTransport N :=
  { t with inKey := N.rekey t.inKey }

/-- Seals under the next nonce. -/
def encrypt (plaintext : Bytes) : SecureTransport N × Except SecurityError Bytes :=
  if t.sendNonce < u64Max then
    match N.write t.outKey t.sendNonce plaintext with
    | none => (t, .error .crypto)
    | some c => ({ t with sendNonce := t.sendNonce + 1 }, .ok c)
  else (t, .error .crypto)

/-- Opens under the next nonce. -/
def decrypt (ciphertext : Bytes) : SecureTransport N × Except SecurityError Bytes :=
  if t.receiveNonce < u64Max then
    match N.read t.inKey t.receiveNonce ciphertext with
    | none => (t, .error .crypto)
    | some p => ({ t with receiveNonce := t.receiveNonce + 1 }, .ok p)
  else (t, .error .crypto)

theorem encrypt_eq_ok {t t' : SecureTransport N} {p out : Bytes} :
    t.encrypt p = (t', .ok out) ↔ t.sendNonce < u64Max ∧
      N.write t.outKey t.sendNonce p = some out ∧
        t' = { t with sendNonce := t.sendNonce + 1 } := by
  unfold encrypt
  split_ifs with h
  · split
    · rename_i hw; simp [hw]
    rename_i c hw
    simp only [Prod.mk.injEq, Except.ok.injEq, h, hw, Option.some.injEq, true_and]
    exact ⟨fun ⟨h1, h2⟩ => ⟨h2, h1.symm⟩, fun ⟨h1, h2⟩ => ⟨h2.symm, h1⟩⟩
  · simp [h]

theorem decrypt_eq_ok {t t' : SecureTransport N} {c p : Bytes} :
    t.decrypt c = (t', .ok p) ↔ t.receiveNonce < u64Max ∧
      N.read t.inKey t.receiveNonce c = some p ∧
        t' = { t with receiveNonce := t.receiveNonce + 1 } := by
  unfold decrypt
  split_ifs with h
  · split
    · rename_i hw; simp [hw]
    rename_i q hw
    simp only [Prod.mk.injEq, Except.ok.injEq, h, hw, Option.some.injEq, true_and]
    exact ⟨fun ⟨h1, h2⟩ => ⟨h2, h1.symm⟩, fun ⟨h1, h2⟩ => ⟨h2.symm, h1⟩⟩
  · simp [h]

end SecureTransport

end Rnet.Security.Cipher
