import Rnet.Lib.ChunkedParser
import Rnet.Transport.TcpSession

/-! # The record reader of a TCP session

`RecordReader` keeps what was read between two takes, so reads and takes may alternate in any way and
be cancelled in between. It yields what a blocking reader gets that reads a length and then that many
bytes, and so the records that `write_wire` put on the stream. -/

namespace Rnet.Transport.RecordReader

open Rnet.Core Lib.BigEndian Lib.ChunkedParser Protocol.Records TcpSession

def next (maxLen : ℕ) (buffered : Bytes) : Result (Option (Bytes × Bytes)) :=
  (takeRecord maxLen buffered).2.map (·.map fun encoded => (encoded, (takeRecord maxLen buffered).1))

/-- A blocking read of `n` bytes, if the stream has them. -/
def readExact (n : ℕ) (stream : Bytes) : Option (Bytes × Bytes) :=
  if stream.length < n then none else some (stream.take n, stream.drop n)

def framedReads (maxLen : ℕ) : ℕ → Bytes → List Bytes
  | 0, _ => []
  | n + 1, stream =>
    match readExact 4 stream with
    | none => []
    | some (length, stream) =>
      if ofBytes length = 0 ∨ maxLen < ofBytes length then []
      else
        match readExact (ofBytes length) stream with
        | none => []
        | some (encoded, stream) => encoded :: framedReads maxLen n stream

variable {m : ℕ}

theorem next_short (h : b.length < 4) : next m b = .ok none := by
  unfold next takeRecord
  rw [if_pos h]
  rfl

theorem next_of_length (hp : p.length = 4) (x : Bytes) : next m (p ++ x) =
    if ofBytes p = 0 then .error ⟨.protocolError, "empty TCP record"⟩
    else if m < ofBytes p then
      .error ⟨.messageTooLarge, "TCP record exceeds the configured limit"⟩
    else if x.length < ofBytes p then .ok none
    else .ok (some (x.take (ofBytes p), x.drop (ofBytes p))) := by
  have hf : field (p ++ x) 0 4 = ofBytes p := congrArg ofBytes (List.take_left' hp)
  have hl : (p ++ x).length = x.length + 4 := by rw [List.length_append, hp, Nat.add_comm]
  unfold next takeRecord
  simp only [hf, hl, List.drop_left' hp, Nat.add_lt_add_iff_right]
  rw [if_neg (by omega)]
  split_ifs <;> rfl

theorem split_length (h : ¬ b.length < 4) : ∃ p x : Bytes, b = p ++ x ∧ p.length = 4 :=
  ⟨_, _, (List.take_append_drop 4 b).symm, List.length_take_of_le (not_lt.mp h)⟩

theorem next_eq_some : next m b = .ok (some (a, rest)) ↔
    a ≠ [] ∧ a.length ≤ m ∧ a.length ≤ u32Max ∧ b = framed a ++ rest := by
  constructor
  · intro h
    by_cases h4 : b.length < 4
    · rw [next_short h4] at h
      cases h
    obtain ⟨p, x, rfl, hp⟩ := split_length h4
    rw [next_of_length hp] at h
    split_ifs at h with h0 hm hx
    · cases h
    cases h
    have hl : (x.take (ofBytes p)).length = ofBytes p := List.length_take_of_le (not_lt.mp hx)
    have hu := ofBytes_lt p
    have ht := toBytes_ofBytes p
    rw [hp] at hu ht
    refine ⟨List.ne_nil_of_length_pos (by omega), by omega, by unfold u32Max; omega, ?_⟩
    rw [framed, hl, ht, List.append_assoc, List.take_append_drop]
  · rintro ⟨ha, hm, hu, rfl⟩
    rw [next, takeRecord_framed ha hm hu]
    rfl

theorem item_framed (ha : a ≠ []) (hm : a.length ≤ m) (hu : a.length ≤ u32Max) :
    framed a ≠ [] ∧ Item (next m) (framed a) a :=
  ⟨List.ne_nil_of_length_pos (by simp [framed]), fun _ => next_eq_some.mpr ⟨ha, hm, hu, rfl⟩⟩

theorem incremental (m : ℕ) : Incremental 4 (next m) where
  empty := rfl
  item h := by
    obtain ⟨ha, hm, hu, rfl⟩ := next_eq_some.mp h
    obtain ⟨hp, hi⟩ := item_framed ha hm hu
    exact ⟨_, hp, rfl, hi⟩
  bad := by
    intro b e h
    by_cases h4 : b.length < 4
    · rw [next_short h4] at h
      cases h
    obtain ⟨p, x, rfl, hp⟩ := split_length h4
    refine ⟨p, x, rfl, hp, fun y => ?_⟩
    rw [next_of_length hp] at h ⊢
    split_ifs at h ⊢ <;> exact h

theorem framedReads_eq (m : ℕ) : ∀ n b, framedReads m n b = (drain (next m) n b).1
  | 0, _ => rfl
  | n + 1, b => by
    rw [framedReads, drain, readExact]
    by_cases h4 : b.length < 4
    · rw [if_pos h4, next_short h4]
    obtain ⟨p, x, rfl, hp⟩ := split_length h4
    rw [if_neg h4, next_of_length hp, List.take_left' hp, List.drop_left' hp]
    dsimp only
    by_cases h0 : ofBytes p = 0
    · rw [if_pos (.inl h0), if_pos h0]
    by_cases hm : m < ofBytes p
    · rw [if_pos (.inr hm), if_neg h0, if_pos hm]
    rw [if_neg (not_or.mpr ⟨h0, hm⟩), if_neg h0, if_neg hm, readExact]
    split_ifs
    · rfl
    · exact congrArg (_ :: ·) (framedReads_eq m n _)

theorem parses_framed {encoded : List Bytes}
    (h : ∀ a ∈ encoded, a ≠ [] ∧ a.length ≤ m ∧ a.length ≤ u32Max) :
    Parses 4 (next m) (encoded.map framed).flatten encoded [] none := by
  induction encoded with
  | nil => exact .waits rfl
  | cons a encoded ih =>
    obtain ⟨ha, hm, hu⟩ := h a List.mem_cons_self
    obtain ⟨hp, hi⟩ := item_framed ha hm hu
    exact .item hp hi (ih fun a h' => h a (List.mem_cons_of_mem _ h'))

theorem framed_of_parses (h : Parses 4 (next m) b as [] none) : b = (as.map framed).flatten := by
  generalize hr : [] = r at h
  generalize he : none = e at h
  induction h with
  | waits => exact hr.symm
  | fails => cases he
  | item hp h _ ih =>
    obtain ⟨-, -, -, hb⟩ := next_eq_some.mp (h [])
    rw [List.map_cons, List.flatten_cons, ← ih hr he, List.append_cancel_right hb]

/-- **The reader yields the records that were written**, in order, with no error, and what is left of
them is what it has buffered and not read; of an arbitrary stream it yields what blocking reads get,
all of it once everything was read and a take found nothing or failed. -/
theorem reader_yields_records (maxLen : ℕ) (ops : List (Op UInt8)) (unread : Bytes) :
    (∀ sent : List (Record × ℕ × Bytes), (∀ s ∈ sent, writeWire s.1 s.2.1 = .ok s.2.2 ∧
        (recordBytes s.1).length ≤ maxLen) → arrived ops ++ unread = (sent.map (·.2.2)).flatten →
      (run (next maxLen) [] ops).2.2 = none ∧
        ∃ left, sent.map (fun s => recordBytes s.1) = (run (next maxLen) [] ops).1 ++ left ∧
          (run (next maxLen) [] ops).2.1 ++ unread = (left.map framed).flatten) ∧
    ∀ stream, arrived ops ++ unread = stream →
      (run (next maxLen) [] ops).1 <+: framedReads maxLen stream.length stream ∧
        (unread = [] → ((run (next maxLen) [] ops).2.2 ≠ none ∨
          next maxLen (run (next maxLen) [] ops).2.1 = .ok none) →
            (run (next maxLen) [] ops).1 = framedReads maxLen stream.length stream) := by
  have hi := incremental maxLen
  constructor
  · intro sent hs hst
    have hw : sent.map (·.2.2) = (sent.map fun s => recordBytes s.1).map framed := by
      rw [List.map_map]
      exact List.map_congr_left fun s h => (writeWire_eq_ok.mp (hs s h).1).2.2
    have hp := @parses_framed maxLen (sent.map fun s => recordBytes s.1) ?_
    · rw [← hw, ← hst] at hp
      rcases run_of_parses hi unread ops [] hp with ⟨hn, left, ha, hl⟩ | ⟨err, -, he, -⟩
      · exact ⟨hn, left, ha, framed_of_parses hl⟩
      · cases he
    · intro a ha
      obtain ⟨s, h, rfl⟩ := List.mem_map.mp ha
      have hl := length_recordBytes s.1
      obtain ⟨-, hu, -⟩ := writeWire_eq_ok.mp (hs s h).1
      refine ⟨List.ne_nil_of_length_pos ?_, (hs s h).2, hl.trans_le hu⟩
      rw [hl, headerLen]
      omega
  · rintro stream rfl
    obtain ⟨as, r, e, h⟩ := exists_parses hi _ (arrived ops ++ unread) le_rfl
    rw [framedReads_eq, drain_of_parses hi h _ le_rfl]
    rcases run_of_parses hi unread ops [] h with ⟨hn, left, rfl, hl⟩ | ⟨err, -, -, ha⟩
    · refine ⟨List.prefix_append _ _, ?_⟩
      rintro rfl (hne | hw)
      · exact absurd hn hne
      · rw [List.append_nil] at hl
        rw [(hl.unique hi (.waits hw)).1, List.append_nil]
    · exact ⟨ha ▸ List.prefix_rfl, fun _ _ => ha⟩

end Rnet.Transport.RecordReader
