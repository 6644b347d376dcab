import Rnet.Security.TagNoise

/-! # The replay window as a set of nonces

A window of 64 bits below the highest accepted nonce stands for the set of nonces that were accepted:
bit `d` is nonce `highest - d`. `Represents` is that relation, `represents_insert` says that inserting
a new nonce keeps it, whatever the distance to the highest one, and `replay_protection` reads off
what `decrypt` accepts after any sequence of records under one key. -/

namespace Rnet.Security.Replay

open Lib.BigEndian Cipher TagNoise

variable {N : Noise}

/-! ### Bits -/

variable {b : BitVec 64} {d : ℕ}

theorem mask_ne_zero (hd : d < 64) : (b &&& (1#64 <<< d) != 0) = b.getLsbD d := by
  have hm : (1#64 <<< d).getLsbD d = true := by
    simp [hd]
  rw [← BitVec.twoPow_eq] at hm ⊢
  rw [BitVec.and_twoPow]
  by_cases hb : b.getLsbD d = true
  · rw [if_pos hb, hb, bne_iff_ne]
    intro hz
    rw [hz] at hm
    simp at hm
  · rw [if_neg hb]
    simpa using hb

theorem getLsbD_set (hi : i < 64) :
    (b ||| (1#64 <<< d)).getLsbD i = (b.getLsbD i || decide (i = d)) := by
  rw [BitVec.getLsbD_or, ← BitVec.twoPow_eq, BitVec.getLsbD_twoPow]
  congr 1
  by_cases h : i = d
  · subst h
    simp [hi]
  · simp [h, Ne.symm h]

theorem getLsbD_shift (hi : i < 64) :
    ((b <<< d) ||| 1).getLsbD i = (decide (i = 0) || (!decide (i < d) && b.getLsbD (i - d))) := by
  rw [BitVec.getLsbD_or, BitVec.getLsbD_shiftLeft, Bool.or_comm]
  simp [hi]

/-! ### The window and the set it stands for -/

/-- The window stands for the accepted nonces: its highest one is the largest of them, and of the
nonces less than 64 below it those with their bit set were accepted. -/
structure Represents (w : ReplayWindow) (accepted : List ℕ) : Prop where
  fresh : w.highest = none → accepted = []
  top : ∀ {highest}, w.highest = some highest → highest ∈ accepted
  bound : ∀ {highest n}, w.highest = some highest → n ∈ accepted → n ≤ highest
  bit : ∀ {highest n}, w.highest = some highest → n ≤ highest → highest - n ≤ 63 →
    (w.bitmap.getLsbD (highest - n) = true ↔ n ∈ accepted)

theorem represents_empty : Represents .empty [] where
  fresh _ := rfl
  top h := by cases h
  bound h := by cases h
  bit h := by cases h

variable {accepted : List ℕ}

theorem represents_some (ht : highest ∈ accepted) (hb : ∀ n ∈ accepted, n ≤ highest)
    (hbi : ∀ n, n ≤ highest → highest - n ≤ 63 → (bitmap.getLsbD (highest - n) = true ↔ n ∈
      accepted)) : Represents ⟨some highest, bitmap⟩ accepted where
  fresh h := by cases h
  top h := by cases h; exact ht
  bound h hn := by cases h; exact hb _ hn
  bit h := by cases h; exact hbi _

/-- A nonce may still be accepted: it is above the highest one, or at most 63 below and new. -/
def Acceptable (w : ReplayWindow) (accepted : List ℕ) (nonce : ℕ) : Prop :=
  ∀ highest, w.highest = some highest →
    highest < nonce ∨ highest - nonce ≤ 63 ∧ nonce ∉ accepted

theorem contains_eq_false (h : Represents w accepted) :
    w.contains nonce = false ↔ Acceptable w accepted nonce := by
  unfold ReplayWindow.contains Acceptable
  cases hw : w.highest with
  | none => simp
  | some highest =>
    simp only [Option.some.injEq, forall_eq']
    split_ifs with ha
    · simp [ha]
    rw [Bool.or_eq_false_iff, decide_eq_false_iff_not]
    have hl : nonce ≤ highest := by omega
    constructor
    · rintro ⟨hn, hb⟩
      rw [mask_ne_zero (by omega)] at hb
      refine .inr ⟨by omega, fun hm => ?_⟩
      rw [(h.bit hw hl (by omega)).mpr hm] at hb
      cases hb
    · rintro (h' | ⟨hn, hne⟩)
      · exact absurd h' ha
      refine ⟨by omega, ?_⟩
      rw [mask_ne_zero (by omega), Bool.eq_false_iff, Ne, h.bit hw hl hn]
      exact hne

/-- **Inserting an acceptable nonce adds it to the set**, however far the window moves. -/
theorem represents_insert (h : Represents w accepted) (hnew : w.contains nonce = false) :
    Represents (w.insert nonce).1 (accepted ++ [nonce]) := by
  unfold ReplayWindow.contains at hnew
  unfold ReplayWindow.insert
  cases hw : w.highest with
  | none =>
    rw [h.fresh hw]
    refine represents_some (List.mem_singleton_self _) (fun n hn => ?_) fun n hn hne => ?_
    · exact (List.mem_singleton.mp hn).le
    have hz : (1#64).getLsbD (nonce - n) = decide (nonce - n = 0) := by simp
    rw [List.nil_append, List.mem_singleton, show (1 : BitVec 64) = 1#64 from rfl, hz,
      decide_eq_true_iff]
    omega
  | some highest =>
    rw [hw] at hnew
    dsimp only at hnew ⊢
    have hb : ∀ n ∈ accepted, n ≤ highest := fun n hn => h.bound hw hn
    have hm : ∀ n, n ∈ accepted ++ [nonce] ↔ n ∈ accepted ∨ n = nonce := fun n => by
      rw [List.mem_append, List.mem_singleton]
    split_ifs at hnew ⊢ with ha hf ho
    · -- the window leaves everything behind
      refine represents_some ?_ (fun n hn => ?_) fun n hn hne => ?_
      · exact (hm nonce).mpr (.inr rfl)
      · rcases (hm n).mp hn with ho | rfl
        · have := hb n ho
          omega
        · exact le_rfl
      · have hz : (1#64).getLsbD (nonce - n) = decide (nonce - n = 0) := by simp
        rw [hm, show (1 : BitVec 64) = 1#64 from rfl, hz, decide_eq_true_iff]
        constructor
        · intro he
          exact .inr (by omega)
        rintro (ho | rfl)
        · have := hb n ho
          omega
        · exact Nat.sub_self _
    · -- the window moves up by less than its width
      refine represents_some ?_ (fun n hn => ?_) fun n hn hne => ?_
      · exact (hm nonce).mpr (.inr rfl)
      · rcases (hm n).mp hn with ho | rfl
        · have := hb n ho
          omega
        · exact le_rfl
      · rw [hm, getLsbD_shift (by omega), Bool.or_eq_true, decide_eq_true_iff,
          Bool.and_eq_true, Bool.not_eq_true', decide_eq_false_iff_not]
        by_cases hn' : n ≤ highest
        · have hd : nonce - n - (nonce - highest) = highest - n := by omega
          rw [hd, h.bit hw hn' (by omega)]
          constructor
          · rintro (he | ⟨-, ho⟩)
            · exact .inr (by omega)
            · exact .inl ho
          · rintro (ho | rfl)
            · exact .inr ⟨by omega, ho⟩
            · exact .inl (Nat.sub_self _)
        · constructor
          · rintro (he | ⟨hlt, -⟩)
            · exact .inr (by omega)
            · omega
          · rintro (ho | rfl)
            · exact absurd (hb n ho) hn'
            · exact .inl (Nat.sub_self _)
    · rw [hnew] at ho
      cases ho
    -- one more bit is set
    have hl : nonce ≤ highest := by omega
    refine represents_some ?_ (fun n hn => ?_) fun n hn hne => ?_
    · exact (hm highest).mpr (.inl (h.top hw))
    · rcases (hm n).mp hn with ho | rfl
      · exact hb n ho
      · exact hl
    · rw [hm, getLsbD_set (by omega), Bool.or_eq_true, decide_eq_true_iff,
        h.bit hw hn hne]
      constructor
      · rintro (ho | he)
        · exact .inl ho
        · exact .inr (by omega)
      · rintro (ho | rfl)
        · exact .inl ho
        · exact .inr rfl

/-! ### Sequences of records -/

structure Presented (N : Noise) where
  transport : DatagramTransport N
  accepted : List ℕ

def nonceOf (record : Bytes) : ℕ := field record 0 8

def authentic (t : DatagramTransport N) (record : Bytes) : Bool :=
  24 ≤ record.length && (N.read t.inKey (nonceOf record) (record.drop 8)).isSome

def present (s : Presented N) (record : Bytes) : Presented N :=
  match s.transport.decrypt record with
  | (t, .ok _) => ⟨t, s.accepted ++ [nonceOf record]⟩
  | (t, .error _) => ⟨t, s.accepted⟩

theorem decrypt_of_represents {t : DatagramTransport N} (h : Represents t.replay accepted)
    (record : Bytes) :
    (authentic t record = true ∧ Acceptable t.replay accepted (nonceOf record) ∧ ∃ p,
      t.decrypt record =
        ({ t with replay := (t.replay.insert (nonceOf record)).1 }, .ok p)) ∨
      (¬(authentic t record = true ∧ Acceptable t.replay accepted (nonceOf record)) ∧
        ∃ e, t.decrypt record = (t, .error e)) := by
  have hi : t.replay.contains (nonceOf record) = false ↔ _ := contains_eq_false h
  unfold DatagramTransport.decrypt authentic
  rw [Bool.and_eq_true, decide_eq_true_iff]
  split_ifs with hsh hs
  · exact .inr ⟨fun ⟨⟨hl, _⟩, _⟩ => absurd hl (by omega), _, rfl⟩
  · refine .inr ⟨fun ⟨_, ha⟩ => ?_, _, rfl⟩
    have hf := hi.mpr ha
    rw [show t.replay.contains (nonceOf record) = true from hs] at hf
    cases hf
  · have hf : t.replay.contains (nonceOf record) = false :=
      Bool.eq_false_iff.mpr hs
    cases hr : N.read t.inKey (nonceOf record) (record.drop 8) with
    | none =>
      rw [show field record 0 8 = nonceOf record from rfl, hr]
      exact .inr ⟨fun ⟨⟨_, hso⟩, _⟩ => (by cases hso), _, rfl⟩
    | some p =>
      obtain ⟨w, hw⟩ := ReplayWindow.insert_of_not_contains hf
      rw [show field record 0 8 = nonceOf record from rfl, hr, hw]
      exact .inl ⟨⟨by omega, rfl⟩, hi.mp hf, p, rfl⟩

/-- The accepted nonces are distinct and the window stands for them. -/
structure Tracked (key : N.Key) (s : Presented N) : Prop where
  nodup : s.accepted.Nodup
  window : Represents s.transport.replay s.accepted
  inKey : s.transport.inKey = key

theorem tracked_present (h : Tracked key s) (record : Bytes) : Tracked key (present s record) := by
  unfold present
  rcases decrypt_of_represents h.window record with ⟨-, ha, p, he⟩ | ⟨-, e, he⟩
  · rw [he]
    have hf := (contains_eq_false h.window).mpr ha
    refine ⟨?_, represents_insert h.window hf, h.inKey⟩
    -- an accepted nonce is at most the highest one, so an acceptable one is new
    rw [List.nodup_append]
    refine ⟨h.nodup, List.nodup_singleton _, fun n hn m hm => ?_⟩
    rw [List.mem_singleton.mp hm]
    rintro rfl
    cases hw : s.transport.replay.highest with
    | none =>
      rw [h.window.fresh hw] at hn
      cases hn
    | some highest =>
      have hl := h.window.bound hw hn
      rcases ha highest hw with hab | ⟨-, hne⟩
      · omega
      · exact hne hn
  · rw [he]
    exact ⟨h.nodup, h.window, h.inKey⟩

/-- **Replay protection.** After any sequence of records under one key, every nonce was accepted at
most once and the window stands for exactly the accepted nonces. The next record is accepted iff it
is authentic and its nonce is above the highest accepted one, or at most 63 below it and new; a record
that is not accepted, in particular one that is not authentic, changes nothing. -/
theorem replay_protection (t : DatagramTransport N) (records : List Bytes) :
    let s := records.foldl present ⟨{ t with replay := .empty }, []⟩
    s.accepted.Nodup ∧ Represents s.transport.replay s.accepted ∧
      ∀ record,
        ((∃ t' p, s.transport.decrypt record = (t', .ok p)) ↔
          authentic s.transport record = true ∧
            Acceptable s.transport.replay s.accepted (nonceOf record)) ∧
        (∀ t' e, s.transport.decrypt record = (t', .error e) → t' = s.transport) := by
  intro s
  have hs : Tracked t.inKey s := List.foldlRecOn records _ ⟨.nil, represents_empty, rfl⟩
    fun _ h record _ => tracked_present h record
  refine ⟨hs.nodup, hs.window, fun record => ?_⟩
  rcases decrypt_of_represents hs.window record with ⟨hau, ha, p, he⟩ | ⟨hn, e, he⟩
  · rw [he]
    exact ⟨⟨fun _ => ⟨hau, ha⟩, fun _ => ⟨_, p, rfl⟩⟩, fun t' e h => by cases h⟩
  rw [he]
  refine ⟨⟨fun ⟨t', p, h⟩ => (by cases h), fun h => absurd h hn⟩, fun t' e' h => ?_⟩
  cases h
  rfl

/-- The window over a gap of more than its width and back within it. -/
example : let t : DatagramTransport tagNoise := .ofKeys (⟨0, 0, 0⟩, ⟨0, 0, 1⟩)
    let record (nonce : ℕ) := toBytes 8 nonce ++ tag ⟨0, 0, 1⟩ nonce
    ([3, 3, 100, 37, 36, 100, 37].map record).foldl present ⟨t, []⟩ |>.accepted =
      [3, 100, 37] := by
  decide +kernel

end Rnet.Security.Replay
