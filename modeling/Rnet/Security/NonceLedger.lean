import Rnet.Security.Cipher

/-! # The nonces of a datagram transport

A transport reserves its nonces from a counter that starts again at zero with every outgoing key.
The `Ledger` follows a transport through its operations: it writes down every outgoing key in the
order in which they come into use, and every call of `encrypt` with the number and the value of the
key it found in the transport, the nonce, the plaintext and the answer. Whatever the operations are,
each key is the one a handshake computed or the rekey of the key before it, all calls under one
number have the key of that number, and the calls that reached the cipher are ordered by number and
nonce, so none of them repeats the pair of another (`Ledger.Sound`). -/

namespace Rnet.Security.NonceLedger

open Rnet.Core Lib.BigEndian Cipher

variable {N : Noise}

/-- What the keys of a finished handshake are computed from. -/
inductive Finished (N : Noise)
  | initiator (identity : N.Identity) (seed : N.Seed) (response : Bytes)
  | responder (identity : N.Identity) (seed : N.Seed) (first finish : Bytes)

/-- The outgoing and the incoming key of a finished handshake. -/
def Finished.keys : Finished N → N.Key × N.Key
  | initiator identity seed response => N.initiatorKeys identity seed response
  | responder identity seed first finish => N.responderKeys identity seed first finish

/-- One operation on the transport of a session. `begin` is the end of a handshake. -/
inductive Op (N : Noise)
  | begin (finished : Finished N)
  | encrypt (plaintext : Bytes)
  | decrypt (record : Bytes)
  | rekeyIncoming
  | rekeyOutgoing

/-- Which operation brought an outgoing key into use. -/
inductive Origin (N : Noise)
  | handshake (finished : Finished N)
  | rekey

/-- An outgoing key, as the operation left it in the transport. -/
structure OutgoingKey (N : Noise) where
  origin : Origin N
  key : N.Key

/-- The key is the one its handshake computed, or the rekey of the one before it. -/
def OutgoingKey.Derived (k : OutgoingKey N) (previous : Option (OutgoingKey N)) : Prop :=
  match k.origin with
  | .handshake finished => k.key = finished.keys.1
  | .rekey => ∃ p, previous = some p ∧ k.key = N.rekey p.key

/-- A call of `encrypt`: the number of the outgoing key, the key and the nonce the call found, the
plaintext and what it answered. -/
structure Sealing (N : Noise) where
  generation : ℕ
  key : N.Key
  nonce : ℕ
  plaintext : Bytes
  answer : Except SecurityError Bytes

/-- The transport in use, the outgoing keys so far and the calls of `encrypt` so far. -/
structure Ledger (N : Noise) where
  transport : Option (DatagramTransport N)
  keys : List (OutgoingKey N)
  calls : List (Sealing N)

namespace Ledger

/-- The ledger of an address that never had a session. -/
def blank (N : Noise) : Ledger N := ⟨none, [], []⟩

/-- The number of the key in use, which is the last one. -/
def generation (g : Ledger N) : ℕ := g.keys.length - 1

/-- One operation; without a transport there is nothing to operate on. -/
def after (g : Ledger N) : Op N → Ledger N
  | .begin finished =>
    { g with
      transport := some (.ofKeys finished.keys)
      keys := g.keys ++ [⟨.handshake finished, (DatagramTransport.ofKeys finished.keys).outKey⟩] }
  | .encrypt plaintext =>
    match g.transport with
    | none => g
    | some t =>
      { g with
        transport := some (t.encrypt plaintext).1
        calls := g.calls ++
          [⟨g.generation, t.outKey, t.sendNonce, plaintext, (t.encrypt plaintext).2⟩] }
  | .decrypt record => { g with transport := g.transport.map fun t => (t.decrypt record).1 }
  | .rekeyIncoming => { g with transport := g.transport.map DatagramTransport.rekeyIncoming }
  | .rekeyOutgoing =>
    match g.transport with
    | none => g
    | some t =>
      { g with
        transport := some t.rekeyOutgoing
        keys := g.keys ++ [⟨.rekey, t.rekeyOutgoing.outKey⟩] }

/-- Operations one after the other. -/
def perform (g : Ledger N) (ops : List (Op N)) : Ledger N := ops.foldl after g

@[simp] theorem perform_nil (g : Ledger N) : g.perform [] = g := rfl

@[simp] theorem perform_cons (g : Ledger N) (op : Op N) (ops : List (Op N)) :
    g.perform (op :: ops) = (g.after op).perform ops := rfl

@[simp] theorem perform_append (g : Ledger N) (ops ops' : List (Op N)) :
    g.perform (ops ++ ops') = (g.perform ops).perform ops' := List.foldl_append

variable {g : Ledger N} {t : DatagramTransport N}

theorem after_encrypt (h : g.transport = some t) (p : Bytes) : g.after (.encrypt p) =
      ⟨some (t.encrypt p).1, g.keys,
        g.calls ++ [⟨g.generation, t.outKey, t.sendNonce, p, (t.encrypt p).2⟩]⟩ := by
  unfold after
  rw [h]

theorem after_rekeyOutgoing (h : g.transport = some t) :
    g.after .rekeyOutgoing =
      ⟨some t.rekeyOutgoing, g.keys ++ [⟨.rekey, t.rekeyOutgoing.outKey⟩], g.calls⟩ := by
  unfold after
  rw [h]

theorem calls_subset_after (g : Ledger N) (op : Op N) : g.calls ⊆ (g.after op).calls := by
  cases op with
  | encrypt p =>
    cases ht : g.transport with
    | none =>
      unfold after
      rw [ht]
      exact List.Subset.refl _
    | some t =>
      rw [after_encrypt ht]
      exact List.subset_append_left _ _
  | rekeyOutgoing =>
    cases ht : g.transport with
    | none =>
      unfold after
      rw [ht]
      exact List.Subset.refl _
    | some t =>
      rw [after_rekeyOutgoing ht]
      exact List.Subset.refl _
  | _ => exact List.Subset.refl _

theorem calls_subset_perform (g : Ledger N) : ∀ ops, g.calls ⊆ (g.perform ops).calls
  | [] => List.Subset.refl _
  | op :: ops => List.Subset.trans (g.calls_subset_after op) (calls_subset_perform _ ops)

end Ledger

/-! ### Key and nonce of a call -/

namespace Sealing

/-- The cipher ran: the counter had a nonce left to reserve. -/
def Reserved (x : Sealing N) : Prop := x.nonce < u64Max

/-- The call `x` used an earlier key than `y`, or an earlier nonce of the same key. The exhausted
counter stays where it is. -/
def Before (x y : Sealing N) : Prop :=
  x.generation < y.generation ∨
    x.generation = y.generation ∧ (x.nonce < y.nonce ∨ x.nonce = u64Max ∧ y.nonce = u64Max)

/-- The call answered with what the cipher made of its key, nonce and plaintext; with an exhausted
counter it failed. -/
structure Answered (x : Sealing N) : Prop where
  range : x.nonce ≤ u64Max
  reserved : x.Reserved → x.answer = match N.write x.key x.nonce x.plaintext with
    | none => .error .crypto
    | some c => .ok (toBytes 8 x.nonce ++ c)
  exhausted : ¬ x.Reserved → x.answer = .error .invalidState

theorem Before.ne_of_reserved {x y : Sealing N} (h : x.Before y) (hx : x.Reserved)
    (hg : x.generation = y.generation) : x.nonce ≠ y.nonce := by
  rcases h with h | ⟨-, h | ⟨h, -⟩⟩
  · exact absurd hg (Nat.ne_of_lt h)
  · exact Nat.ne_of_lt h
  · exact absurd h (Nat.ne_of_lt hx)

end Sealing

/-- A counter that cannot be advanced stays, and the call fails; otherwise it advances by one whatever
the cipher answers. -/
theorem encrypt_cases (t : DatagramTransport N) (p : Bytes) :
    (t.sendNonce < u64Max ∧ (t.encrypt p).1.sendNonce = t.sendNonce + 1) ∨
      (u64Max ≤ t.sendNonce ∧ t.encrypt p = (t, .error .invalidState)) := by
  unfold DatagramTransport.encrypt
  by_cases h : t.sendNonce + 1 ≤ u64Max
  · rw [if_pos h]
    refine .inl ⟨h, ?_⟩
    split <;> rfl
  · rw [if_neg h]
    exact .inr ⟨Nat.le_of_not_lt h, rfl⟩

theorem answered_encrypt (t : DatagramTransport N) (p : Bytes) (generation : ℕ)
    (h : t.sendNonce ≤ u64Max) :
    (Sealing.mk generation t.outKey t.sendNonce p (t.encrypt p).2).Answered where
  range := h
  reserved hr := by
    unfold DatagramTransport.encrypt
    rw [if_pos (show t.sendNonce + 1 ≤ u64Max from hr)]
    split <;> rename_i hw <;> simp only [hw]
  exhausted hr := by
    unfold DatagramTransport.encrypt
    rw [if_neg (show ¬ t.sendNonce + 1 ≤ u64Max from hr)]

namespace Ledger

/-- What holds of a ledger after any operations. -/
structure Sound (g : Ledger N) : Prop where
  /-- calls are ordered by key and nonce -/
  ordered : g.calls.Pairwise Sealing.Before
  /-- a call was made under the key of its number -/
  keyed : ∀ x ∈ g.calls, ∃ k, g.keys[x.generation]? = some k ∧ k.key = x.key
  /-- a key is the one a handshake computed, or the rekey of the one before it -/
  derived : ∀ (n : ℕ) (k : OutgoingKey N), g.keys[n]? = some k → k.Derived (g.keys.take n).getLast?
  /-- the transport holds the last key -/
  current : ∀ t, g.transport = some t → ∃ k, g.keys.getLast? = some k ∧ k.key = t.outKey
  /-- the nonces of the key in use are below its counter -/
  spent : ∀ t, g.transport = some t → ∀ x ∈ g.calls, x.generation = g.generation →
    x.nonce < t.sendNonce ∨ x.nonce = u64Max ∧ t.sendNonce = u64Max
  /-- the counter of the key in use does not pass the end of its range -/
  counter : ∀ t, g.transport = some t → t.sendNonce ≤ u64Max
  /-- every call answered with what the cipher made of it -/
  answered : ∀ x ∈ g.calls, x.Answered

theorem sound_blank : (blank N).Sound :=
  ⟨.nil, nofun, nofun, nofun, nofun, nofun, nofun⟩

variable {g : Ledger N}

variable (h : g.Sound)
include h

theorem Sound.generation_lt (hx : x ∈ g.calls) : x.generation < g.keys.length := by
  obtain ⟨k, hk, -⟩ := h.keyed x hx
  exact (List.getElem?_eq_some_iff.mp hk).1

/-- An operation that leaves the outgoing key and its counter alone. -/
theorem Sound.of_counter {g' : Ledger N} (hc : g'.calls = g.calls) (hk : g'.keys = g.keys)
    (htr : ∀ t', g'.transport = some t' → ∃ t, g.transport = some t ∧
      t'.outKey = t.outKey ∧ t'.sendNonce = t.sendNonce) : g'.Sound where
  ordered := by rw [hc]; exact h.ordered
  keyed := by rw [hc, hk]; exact h.keyed
  derived := by rw [hk]; exact h.derived
  current t' ht' := by
    obtain ⟨t, ht, ho, -⟩ := htr t' ht'
    rw [hk, ho]
    exact h.current t ht
  spent t' ht' := by
    obtain ⟨t, ht, -, hn⟩ := htr t' ht'
    unfold generation
    rw [hc, hk, hn]
    exact h.spent t ht
  counter t' ht' := by
    obtain ⟨t, ht, -, hn⟩ := htr t' ht'
    rw [hn]
    exact h.counter t ht
  answered := by rw [hc]; exact h.answered

/-- An operation that brings a new outgoing key into use, with a counter at zero. -/
theorem Sound.of_key (hk : k.Derived g.keys.getLast?) (ho : k.key = t'.outKey)
    (hn : t'.sendNonce = 0) : (Ledger.mk (some t') (g.keys ++ [k]) g.calls).Sound where
  ordered := h.ordered
  keyed x hx := by
    rw [List.getElem?_append_left (h.generation_lt hx)]
    exact h.keyed x hx
  derived n k' hk' := by
    rcases Nat.lt_trichotomy n g.keys.length with hl | rfl | hl
    · rw [List.getElem?_append_left hl] at hk'
      rw [List.take_append_of_le_length hl.le]
      exact h.derived n k' hk'
    · rw [List.getElem?_concat_length] at hk'
      cases hk'
      rw [List.take_left]
      exact hk
    · have hle : (g.keys ++ [k]).length ≤ n := by
        rw [List.length_append]
        exact hl
      rw [List.getElem?_eq_none hle] at hk'
      cases hk'
  current t ht := by
    cases ht
    exact ⟨k, List.getLast?_concat, ho⟩
  spent t ht x hx he := by
    have hl := h.generation_lt hx
    simp only [generation, List.length_append, List.length_singleton] at he
    omega
  counter t ht := by
    cases ht
    rw [hn]
    exact Nat.zero_le _
  answered := h.answered

theorem Sound.encrypt (ht : g.transport = some t) (p : Bytes) : (g.after (.encrypt p)).Sound := by
  have hc := h.counter t ht
  obtain ⟨k, hk, ho⟩ := h.current t ht
  have hlast : g.keys[g.generation]? = some k := by
    rw [← hk, List.getLast?_eq_getElem?]
    rfl
  rw [after_encrypt ht]
  constructor
  case ordered =>
    refine List.pairwise_append.mpr ⟨h.ordered, List.pairwise_singleton .., fun x hx y hy => ?_⟩
    rw [List.mem_singleton.mp hy]
    have hle : x.generation ≤ g.generation := Nat.le_sub_one_of_lt (h.generation_lt hx)
    rcases Nat.lt_or_eq_of_le hle with hl | he
    · exact .inl hl
    · exact .inr ⟨he, h.spent t ht x hx he⟩
  case keyed =>
    intro x hx
    rcases List.mem_append.mp hx with hx | hx
    · exact h.keyed x hx
    · rw [List.mem_singleton.mp hx]
      exact ⟨k, hlast, ho⟩
  case derived => exact h.derived
  case current =>
    intro t' ht'
    cases ht'
    exact ⟨k, hk, ho.trans (t.encrypt_keys p).1.symm⟩
  case spent =>
    intro t' ht' x hx he
    cases ht'
    rcases List.mem_append.mp hx with hx | hx
    · rcases encrypt_cases t p with ⟨hl, hn⟩ | ⟨-, hs⟩
      · rw [hn]
        rcases h.spent t ht x hx he with hx | ⟨-, hen⟩
        · exact .inl (Nat.lt_succ_of_lt hx)
        · exact absurd hen (Nat.ne_of_lt hl)
      · rw [hs]
        exact h.spent t ht x hx he
    · rw [List.mem_singleton.mp hx]
      rcases encrypt_cases t p with ⟨-, hn⟩ | ⟨hen, hs⟩
      · rw [hn]
        exact .inl (Nat.lt_succ_self _)
      rw [hs]
      have he := Nat.le_antisymm hc hen
      exact .inr ⟨he, he⟩
  case counter =>
    intro t' ht'
    cases ht'
    rcases encrypt_cases t p with ⟨hl, hn⟩ | ⟨-, hs⟩
    · rw [hn]
      exact hl
    · rw [hs]
      exact hc
  case answered =>
    intro x hx
    rcases List.mem_append.mp hx with hx | hx
    · exact h.answered x hx
    · rw [List.mem_singleton.mp hx]
      exact answered_encrypt t p g.generation hc

theorem Sound.after (op : Op N) : (g.after op).Sound := by
  cases op with
  | begin finished => exact h.of_key rfl rfl rfl
  | encrypt p =>
    cases ht : g.transport with
    | none =>
      unfold Ledger.after
      rw [ht]
      exact h
    | some t => exact h.encrypt ht p
  | decrypt record =>
    refine h.of_counter rfl rfl fun t' ht' => ?_
    obtain ⟨t, ht, rfl⟩ := Option.map_eq_some_iff.mp ht'
    have hk := t.decrypt_keys record
    exact ⟨t, ht, hk.1, hk.2.2⟩
  | rekeyIncoming =>
    refine h.of_counter rfl rfl fun t' ht' => ?_
    obtain ⟨t, ht, rfl⟩ := Option.map_eq_some_iff.mp ht'
    exact ⟨t, ht, rfl, rfl⟩
  | rekeyOutgoing =>
    cases ht : g.transport with
    | none =>
      unfold Ledger.after
      rw [ht]
      exact h
    | some t =>
      obtain ⟨k, hk, ho⟩ := h.current t ht
      rw [after_rekeyOutgoing ht]
      exact h.of_key ⟨k, hk, congrArg N.rekey ho.symm⟩ rfl rfl

/-- **Any operations** keep the ledger sound. -/
theorem Sound.perform (ops : List (Op N)) : (g.perform ops).Sound := by
  induction ops generalizing g with
  | nil => exact h
  | cons op ops ih => exact ih (h.after op)

/-- Two calls that reached the cipher under one key number and nonce are the same call. -/
theorem Sound.unique {i j : ℕ} (hx : g.calls[i]? = some x) (hy : g.calls[j]? = some y)
    (hr : x.Reserved) (hg : x.generation = y.generation) (hn : x.nonce = y.nonce) : i = j := by
  obtain ⟨hi, rfl⟩ := List.getElem?_eq_some_iff.mp hx
  obtain ⟨hj, rfl⟩ := List.getElem?_eq_some_iff.mp hy
  have ho := List.pairwise_iff_getElem.mp h.ordered
  rcases Nat.lt_trichotomy i j with hl | he | hl
  · exact absurd hn ((ho i j hi hj hl).ne_of_reserved hr hg)
  · exact he
  have hr' : (g.calls[j]).Reserved := by
    unfold Sealing.Reserved at hr ⊢
    rwa [← hn]
  exact absurd hn.symm
    ((ho j i hj hi hl).ne_of_reserved hr' hg.symm)

end Ledger

end Rnet.Security.NonceLedger
