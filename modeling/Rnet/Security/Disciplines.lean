import Rnet.Lib.SealedChannel
import Rnet.Protocol.Records
import Rnet.Security.Cipher

/-! # The two transports as sealed channels

A `SecureTransport` counts on both sides: the receiver expects the sender's nonces one after the
other, and a change of keys keeps the counters. A `DatagramTransport` sends its nonces along: over a
channel that delivers in order the receiver sees them ascending, possibly with gaps where a sealed
record was not sent, so each of them is above its replay window; a change of keys starts both sides
afresh. Both carry messages whose payload fits the receiver's limit. -/

namespace Rnet.Security.Disciplines

open Rnet.Core Lib.BigEndian Lib.SealedChannel Protocol.Records Cipher

variable {N : Noise}

def Admits (limit : ℕ) (m : ProtectedMessage) : Prop :=
  m.payload.length ≤ limit ∧ m.payload.length ≤ u32Max

/-- The ciphertexts of `q` were sealed under one key at nonces that start at `b` and end before `n`;
`R` says how the nonces follow each other and `pack` how a ciphertext travels. -/
def Chain (R : ℕ → ℕ → Prop) (pack : ℕ → Bytes → Bytes) (limit : ℕ) (key : N.Key) :
    ℕ → List (ProtectedMessage × Bytes) → ℕ → Prop
  | b, [], n => R b n
  | b, (m, c) :: q, n => ∃ k x, R b k ∧ k < u64Max ∧ Admits limit m ∧
    N.write key k (protectedBytes m) = some x ∧ c = pack k x ∧
      Chain R pack limit key (k + 1) q n

variable {limit : ℕ} {m : ProtectedMessage}

theorem Chain.send (hR : ∀ n, R n n) (hm : Admits limit m) (hn : n < u64Max)
    (hx : N.write key n (protectedBytes m) = some x) :
    ∀ {b : ℕ} {q : List (ProtectedMessage × Bytes)}, Chain R pack limit key b q n →
      Chain R pack limit key b (q ++ [(m, pack n x)]) (n + 1)
  | _, [], h => ⟨n, x, h, hn, hm, hx, rfl, hR _⟩
  | _, (_, _) :: _, ⟨k, y, hk, hl, ha, hy, hc, hq⟩ =>
    ⟨k, y, hk, hl, ha, hy, hc, Chain.send hR hm hn hx hq⟩

theorem Chain.mono (hn : n ≤ n') :
    ∀ {b : ℕ} {q : List (ProtectedMessage × Bytes)}, Chain (· ≤ ·) pack limit key b q n → Chain (· ≤
      ·) pack limit key b q n'
  | _, [], h => le_trans h hn
  | _, (_, _) :: _, ⟨k, y, hk, hl, ha, hy, hc, hq⟩ => ⟨k, y, hk, hl, ha, hy, hc, hq.mono hn⟩

def messageOf {T : Type} (limit : ℕ) :
    T × Except SecurityError Bytes → Option (T × ProtectedMessage)
  | (_, .error _) => none
  | (t, .ok plain) =>
    match decodeProtected plain limit with
    | .error _ => none
    | .ok m => some (t, m)

theorem messageOf_protectedBytes (h : Admits limit m) :
    messageOf limit (t, .ok (protectedBytes m)) = some (t, m) := by
  simp only [messageOf, decodeProtected_protectedBytes h.1 h.2]

theorem messageOf_eq_some (h : messageOf limit r = some (t, m)) :
    ∃ plain, r = (t, .ok plain) ∧ decodeProtected plain limit = .ok m := by
  obtain ⟨t₁, _ | plain⟩ := r
  · cases h
  unfold messageOf at h
  split at h
  · rename_i he; cases he
  rename_i he
  cases he
  split at h
  · cases h
  rename_i hd
  cases h
  exact ⟨plain, rfl, hd⟩

/-! ### Counters -/

/-- The receiver counts along with the sender. -/
def CounterFlows (limit : ℕ) (s : SecureTransport N) (q : List (ProtectedMessage × Bytes))
    (r : SecureTransport N) : Prop :=
  r.inKey = s.outKey ∧
    Chain (· = ·) (fun _ x => x) limit s.outKey r.receiveNonce q s.sendNonce

def CounterSeals (limit : ℕ) (t : SecureTransport N) (m : ProtectedMessage)
    (t' : SecureTransport N) (c : Bytes) : Prop :=
  Admits limit m ∧ t.encrypt (protectedBytes m) = (t', .ok c)

def counter (laws : N.CipherLaws) (limit : ℕ) :
    Discipline (SecureTransport N) ProtectedMessage Bytes where
  Seals := CounterSeals limit
  Wastes _ _ := False
  opens t c := messageOf limit (t.decrypt c)
  rekey t := t.rekeyIncoming.rekeyOutgoing
  Flows := CounterFlows limit
  flows_send := by
    rintro s s' r q m c ⟨hkey, hchain⟩ ⟨hm, hs⟩
    obtain ⟨hlt, hwrite, rfl⟩ := SecureTransport.encrypt_eq_ok.mp hs
    exact ⟨hkey, hchain.send (fun _ => rfl) hm hlt hwrite⟩
  flows_sent := by
    rintro x s s' q m c ⟨hkey, hchain⟩ ⟨-, hs⟩
    obtain ⟨-, -, rfl⟩ := SecureTransport.encrypt_eq_ok.mp hs
    exact ⟨hkey, hchain⟩
  flows_waste _ hw := hw.elim
  flows_wasted _ hw := hw.elim
  flows_receive := by
    rintro s r q m c ⟨hkey, k, x, rfl, hlt, hm, hwrite, rfl, hchain⟩
    have hread := laws.read_write hwrite
    rw [← hkey] at hread
    refine ⟨{ r with receiveNonce := r.receiveNonce + 1 }, ?_, hkey, hchain⟩
    rw [SecureTransport.decrypt_eq_ok.mpr ⟨hlt, hread, rfl⟩]
    exact messageOf_protectedBytes hm
  flows_received := by
    rintro r r' x q m c ⟨hkey, hchain⟩ hopens
    obtain ⟨plain, hdecrypt, -⟩ := messageOf_eq_some hopens
    obtain ⟨-, -, rfl⟩ := SecureTransport.decrypt_eq_ok.mp hdecrypt
    exact ⟨hkey, hchain⟩
  flows_rekey := by
    rintro s r ⟨hkey, hchain⟩
    exact ⟨congrArg N.rekey hkey, hchain⟩

/-! ### Windows -/

/-- The sender's nonces are above everything the receiver has seen. -/
def WindowFlows (limit : ℕ) (s : DatagramTransport N) (q : List (ProtectedMessage × Bytes))
    (r : DatagramTransport N) : Prop :=
  r.inKey = s.outKey ∧ ∃ b, (∀ n, r.replay.highest = some n → n < b) ∧
    Chain (· ≤ ·) (fun k x => toBytes 8 k ++ x) limit s.outKey b q s.sendNonce

def WindowSeals (limit : ℕ) (t : DatagramTransport N) (m : ProtectedMessage)
    (t' : DatagramTransport N) (c : Bytes) : Prop :=
  Admits limit m ∧ t.encrypt (protectedBytes m) = (t', .ok c)

def WindowWastes (t t' : DatagramTransport N) : Prop :=
  ∃ n, t.sendNonce ≤ n ∧ t' = { t with sendNonce := n }

theorem field_packed (x : Bytes) (h : k < u64Max) : field (toBytes 8 k ++ x) 0 8 = k :=
  field_toBytes_append x (by unfold u64Max at h; omega)

/-- The discipline of `DatagramTransport` over an ordered channel. -/
def window (laws : N.CipherLaws) (limit : ℕ) :
    Discipline (DatagramTransport N) ProtectedMessage Bytes where
  Seals := WindowSeals limit
  Wastes := WindowWastes
  opens t c := messageOf limit (t.decrypt c)
  rekey t := t.rekeyIncoming.rekeyOutgoing
  Flows := WindowFlows limit
  flows_send := by
    rintro s s' r q m c ⟨hkey, b, hb, hchain⟩ ⟨hm, hs⟩
    obtain ⟨hlt, x, hwrite, rfl, rfl⟩ := DatagramTransport.encrypt_eq_ok.mp hs
    exact ⟨hkey, b, hb, hchain.send le_refl hm hlt hwrite⟩
  flows_sent := by
    rintro x s s' q m c ⟨hkey, b, hb, hchain⟩ ⟨-, hs⟩
    obtain ⟨-, _, -, rfl, -⟩ := DatagramTransport.encrypt_eq_ok.mp hs
    exact ⟨hkey, b, hb, hchain⟩
  flows_waste := by
    rintro s s' r q ⟨hkey, b, hb, hchain⟩ ⟨n, hn, rfl⟩
    exact ⟨hkey, b, hb, hchain.mono hn⟩
  flows_wasted := by
    rintro x s s' q ⟨hkey, b, hb, hchain⟩ ⟨n, hn, rfl⟩
    exact ⟨hkey, b, hb, hchain⟩
  flows_receive := by
    rintro s r q m c ⟨hkey, b, hb, k, x, hbk, hlt, hm, hwrite, rfl, hchain⟩
    have hfield := field_packed x hlt
    have hfresh : ∀ n, r.replay.highest = some n → n < k := fun n hn => (hb n hn).trans_le hbk
    have hread := laws.read_write hwrite
    rw [← hkey] at hread
    refine ⟨{ r with replay := (r.replay.insert k).1 }, ?_, hkey, k + 1, ?_, hchain⟩
    · rw [DatagramTransport.decrypt_eq_ok.mpr ⟨?_, ?_, ?_, rfl⟩, hfield]
      · exact messageOf_protectedBytes hm
      · rw [List.length_append, length_toBytes, laws.length_write hwrite]
        unfold tagLen
        omega
      · rw [hfield]; exact ReplayWindow.not_contains_of_above hfresh
      · rw [hfield, List.drop_left' (length_toBytes 8 k)]; exact hread
    · exact ReplayWindow.highest_insert rfl (fun n hn => (hfresh n hn).trans k.lt_succ_self)
        k.lt_succ_self
  flows_received := by
    rintro r r' x q m c ⟨hkey, b, hb, hchain⟩ hopens
    obtain ⟨plain, hdecrypt, -⟩ := messageOf_eq_some hopens
    obtain ⟨-, -, -, rfl⟩ := DatagramTransport.decrypt_eq_ok.mp hdecrypt
    exact ⟨hkey, b, hb, hchain⟩
  flows_rekey := by
    rintro s r ⟨hkey, -⟩
    exact ⟨congrArg N.rekey hkey, 0, fun n hn => (Option.some_ne_none n hn.symm).elim, le_refl 0⟩

end Rnet.Security.Disciplines
