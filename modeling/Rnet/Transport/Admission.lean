import Mathlib.Data.List.Perm.Basic
import Mathlib.Data.Rat.Defs
import Mathlib.Algebra.Order.Ring.Rat
import Rnet.Lib.FiniteMap
import Rnet.Lib.GuardedRun
import Rnet.Transport.Config

/-! # Admission per IP address

A listener admits handshakes per IP key, an IPv4 address or an IPv6 prefix: an entry counts the
permits of its key that are still held and has a bucket of tokens, of which an admission takes one.
Buckets are refilled lazily, when their own key calls again, and token counts are exact here. The
table is bounded; a call of a new key at a full table first drops the entries that hold no permit
and whose bucket is full.

`Ledger` is a controller together with the permits that are still held. What the reclaim looks at is
the count a bucket was left with, not what it would be by now: `table_rejection_iff` says when that
makes no difference. -/

namespace Rnet.Transport.Admission

open Lib.FiniteMap Lib.GuardedRun Config

/-- Addresses that share one budget. -/
inductive IpKey
  | v4 (octets : BitVec 32)
  | v6 (octets : BitVec 128)
  deriving DecidableEq

/-- `ip_key`: an IPv6 address counts by its first `prefixBits` bits. -/
def ipKey (ip : IpAddr) (prefixBits : ℕ) : IpKey :=
  match ip with
  | .v4 octets => .v4 octets
  | .v6 octets => .v6 (octets &&& BitVec.allOnes 128 <<< (128 - min prefixBits 128))

/-- Why a permit is refused. -/
inductive AdmissionReject
  | active | rate | table
  deriving DecidableEq

/-- Budget of one key. -/
structure Entry where
  active : ℕ
  tokens : ℚ
  updatedAt : ℕ
  deriving DecidableEq

/-- Budgets of all keys, with the limits they share. -/
structure AdmissionController where
  entries : Table IpKey Entry
  maxActive : ℕ
  refillPerSecond : ℕ
  burst : ℕ
  maxEntries : ℕ
  ipv6PrefixBits : ℕ

namespace AdmissionController

/-- A controller without entries. -/
def new (maxActive refillPerSecond burst maxEntries ipv6PrefixBits : ℕ) : AdmissionController :=
  ⟨∅, maxActive, refillPerSecond, burst, maxEntries, ipv6PrefixBits⟩

def key (c : AdmissionController) (ip : IpAddr) : IpKey := ipKey ip c.ipv6PrefixBits

section

variable (c : AdmissionController) (key : IpKey)

def refilled (e : Entry) (now : ℕ) : ℚ :=
  min (e.tokens + ((now - e.updatedAt : ℕ) : ℚ) / 1000000000 * c.refillPerSecond) c.burst

/-- Whether a full table keeps an entry. -/
def retains (e : Entry) : Bool := e.active ≠ 0 || e.tokens < c.burst

/-- Whether a call of `key` needs room in the table. -/
def crowded : Bool :=
  (c.entries.lookup key).isNone && c.maxEntries ≤ size c.entries

def reclaim : AdmissionController :=
  { c with entries := filter c.entries fun _ e => c.retains e }

/-- The admission of a key that has or gets an entry. -/
def admitKey (now : ℕ) : AdmissionController × Except AdmissionReject IpKey :=
  let entry := (c.entries.lookup key).getD ⟨0, c.burst, now⟩
  let entry := { entry with tokens := c.refilled entry now, updatedAt := now }
  if c.maxActive ≤ entry.active then
    ({ c with entries := c.entries.insert key entry }, .error .active)
  else if entry.tokens < 1 then ({ c with entries := c.entries.insert key entry }, .error .rate)
  else
    let entry := { entry with tokens := entry.tokens - 1, active := entry.active + 1 }
    ({ c with entries := c.entries.insert key entry }, .ok key)

/-- `try_acquire_at`; a permit is its key. -/
def tryAcquireAt (ip : IpAddr) (now : ℕ) : AdmissionController × Except AdmissionReject IpKey :=
  if c.crowded (c.key ip) then
    if c.maxEntries ≤ size c.reclaim.entries then (c.reclaim, .error .table)
    else c.reclaim.admitKey (c.key ip) now
  else c.admitKey (c.key ip) now

/-- Dropping a permit gives its place back. -/
def dropPermit : AdmissionController :=
  match c.entries.lookup key with
  | none => c
  | some e => { c with entries := c.entries.insert key { e with active := e.active - 1 } }

def activeOf : ℕ :=
  ((c.entries.lookup key).map Entry.active).getD 0

/-! ### What a call does -/

/-- Limits stay as configured. -/
structure SameLimits (c c' : AdmissionController) : Prop where
  maxActive : c'.maxActive = c.maxActive
  burst : c'.burst = c.burst
  refillPerSecond : c'.refillPerSecond = c.refillPerSecond
  maxEntries : c'.maxEntries = c.maxEntries
  ipv6PrefixBits : c'.ipv6PrefixBits = c.ipv6PrefixBits

end

variable (c : AdmissionController)

variable (ip : IpAddr) (now : ℕ)

@[simp] theorem activeOf_insert (key key' : IpKey) (e : Entry) :
    activeOf { c with entries := c.entries.insert key e } key' =
      if key' = key then e.active else c.activeOf key' := by
  unfold activeOf
  rw [lookup_insert_ite]
  split_ifs <;> rfl

@[simp] theorem activeOf_reclaim (key : IpKey) : c.reclaim.activeOf key = c.activeOf key := by
  unfold activeOf reclaim
  rw [lookup_filter]
  cases c.entries.lookup key with
  | none => rfl
  | some e =>
    by_cases h : c.retains e = true
    · rw [Option.filter_some_pos h]
    have ha : e.active = 0 := by
      by_contra hn
      exact h (by simp [retains, hn])
    rw [Option.filter_some_neg (Bool.eq_false_iff.mpr h)]
    exact ha.symm

theorem activeOf_dropPermit (key key' : IpKey) :
    (c.dropPermit key).activeOf key' = c.activeOf key' - if key' = key then 1 else 0 := by
  unfold dropPermit
  cases h : c.entries.lookup key with
  | none =>
    by_cases hk : key' = key
    · subst hk; simp [activeOf, h]
    · simp [hk]
  | some e =>
    rw [activeOf_insert]
    split_ifs with hk
    · subst hk; simp [activeOf, h]
    · rfl

/-- **What an admission of a key does**: the table keeps an entry for the key, no other key's count
changes, and the key's count grows by one exactly if a permit is handed out, which the limit allows.
-/
structure Admits (c : AdmissionController) (key : IpKey)
    (r : AdmissionController × Except AdmissionReject IpKey) : Prop where
  limits : SameLimits c r.1
  room : size r.1.entries =
    if (c.entries.lookup key).isSome then size c.entries else size c.entries + 1
  counts : (∃ e, r.2 = .error e ∧ e ≠ .table ∧ ∀ key', r.1.activeOf key' = c.activeOf key') ∨
    (r.2 = .ok key ∧ c.activeOf key < c.maxActive ∧
      ∀ key', r.1.activeOf key' = c.activeOf key' + if key' = key then 1 else 0)

theorem admits_admitKey (key : IpKey) (now : ℕ) : Admits c key (c.admitKey key now) := by
  unfold admitKey
  generalize he : (c.entries.lookup key).getD ⟨0, c.burst, now⟩ = entry
  have ha : entry.active = c.activeOf key := by
    rw [← he]
    unfold activeOf
    cases c.entries.lookup key <;> rfl
  have hs : ∀ key', (if key' = key then entry.active else c.activeOf key') = c.activeOf key' := by
    intro key'
    split_ifs with hk
    · rw [ha, hk]
    · rfl
  dsimp only
  split_ifs with hl hr
  · exact ⟨⟨rfl, rfl, rfl, rfl, rfl⟩, size_insert .., .inl ⟨.active, rfl, nofun, fun key' => by
      rw [activeOf_insert]; exact hs key'⟩⟩
  · exact ⟨⟨rfl, rfl, rfl, rfl, rfl⟩, size_insert .., .inl ⟨.rate, rfl, nofun, fun key' => by
      rw [activeOf_insert]; exact hs key'⟩⟩
  refine ⟨⟨rfl, rfl, rfl, rfl, rfl⟩, size_insert .., .inr ⟨rfl, ?_, fun key' => ?_⟩⟩
  · rw [← ha]; exact Nat.lt_of_not_le hl
  rw [activeOf_insert]
  split_ifs with hk
  · rw [hk, ha]
  · rfl

theorem size_reclaim_le : size c.reclaim.entries ≤ size c.entries :=
  countP_le_size c.entries fun _ e => c.retains e

theorem sameLimits_tryAcquireAt : SameLimits c (c.tryAcquireAt ip now).1 := by
  unfold tryAcquireAt
  split_ifs
  · exact ⟨rfl, rfl, rfl, rfl, rfl⟩
  · obtain ⟨h₁, h₂, h₃, h₄, h₅⟩ := (admits_admitKey c.reclaim (c.key ip) now).limits
    exact ⟨h₁, h₂, h₃, h₄, h₅⟩
  · exact (admits_admitKey c (c.key ip) now).limits

theorem sameLimits_dropPermit (key : IpKey) : SameLimits c (c.dropPermit key) := by
  unfold dropPermit
  split <;> exact ⟨rfl, rfl, rfl, rfl, rfl⟩

/-- **What a call does to the counts**: the count of the caller's key grows by one exactly if a permit
is handed out, which the limit allows. -/
theorem counts_tryAcquireAt :
    (∃ e, (c.tryAcquireAt ip now).2 = .error e ∧
      ∀ key, (c.tryAcquireAt ip now).1.activeOf key = c.activeOf key) ∨
    ((c.tryAcquireAt ip now).2 = .ok (c.key ip) ∧ c.activeOf (c.key ip) < c.maxActive ∧
      ∀ key, (c.tryAcquireAt ip now).1.activeOf key =
        c.activeOf key + if key = c.key ip then 1 else 0) := by
  unfold tryAcquireAt
  split_ifs
  · exact .inl ⟨.table, rfl, activeOf_reclaim c⟩
  · have h := (admits_admitKey c.reclaim (c.key ip) now).counts
    simp only [activeOf_reclaim] at h
    exact h.imp_left fun ⟨e, he, _, hc⟩ => ⟨e, he, hc⟩
  · exact (admits_admitKey c (c.key ip) now).counts.imp_left fun ⟨e, he, _, hc⟩ => ⟨e, he, hc⟩

theorem size_tryAcquireAt (h : size c.entries ≤ c.maxEntries) :
    size (c.tryAcquireAt ip now).1.entries ≤ c.maxEntries := by
  have hre := c.size_reclaim_le
  unfold tryAcquireAt
  split_ifs with hc hf
  · exact hre.trans h
  · have hr := (admits_admitKey c.reclaim (c.key ip) now).room
    split_ifs at hr <;> omega
  have hr := (admits_admitKey c (c.key ip) now).room
  split_ifs at hr with hk
  · omega
  simp only [crowded, Bool.and_eq_true, Option.isNone_iff_eq_none, decide_eq_true_eq, not_and,
    Nat.not_le] at hc
  have := hc (Option.not_isSome_iff_eq_none.mp hk)
  omega

theorem size_dropPermit (key : IpKey) : size (c.dropPermit key).entries = size c.entries := by
  unfold dropPermit
  split
  · rfl
  rename_i e he
  rw [size_insert, he]
  rfl

/-- **When a call is refused for want of room**: its key is new, the table is full, and every entry
holds a permit or was left with a bucket that was not full. -/
theorem table_iff (hb : size c.entries ≤ c.maxEntries) :
    (c.tryAcquireAt ip now).2 = .error .table ↔
      c.entries.lookup (c.key ip) = none ∧ size c.entries = c.maxEntries ∧
        ∀ key e, c.entries.lookup key = some e → e.active ≠ 0 ∨ e.tokens < c.burst := by
  have hr : (∀ key e, c.entries.lookup key = some e → e.active ≠ 0 ∨ e.tokens < c.burst) ↔
      size c.entries ≤ size c.reclaim.entries := by
    unfold reclaim
    rw [size_filter, size_le_countP_iff]
    simp only [retains, Bool.or_eq_true, decide_eq_true_eq]
  have ho : ∀ {c' : AdmissionController}, (c'.admitKey (c.key ip) now).2 ≠ .error .table := by
    intro c' ht
    rcases (admits_admitKey c' (c.key ip) now).counts with ⟨e, he, hn, -⟩ | ⟨hok, -⟩
    · rw [he] at ht
      cases ht
      exact hn rfl
    · rw [hok] at ht
      cases ht
  have hre := c.size_reclaim_le
  rw [hr]
  unfold tryAcquireAt crowded
  simp only [Bool.and_eq_true, Option.isNone_iff_eq_none, decide_eq_true_eq]
  split_ifs with hc hf
  · exact ⟨fun _ => ⟨hc.1, by omega, by omega⟩, fun _ => rfl⟩
  · exact ⟨fun h => absurd h ho, fun ⟨_, h₁, h₂⟩ => absurd (by omega) hf⟩
  · exact ⟨fun h => absurd h ho, fun ⟨h₁, h₂, _⟩ => absurd ⟨h₁, h₂.ge⟩ hc⟩

end AdmissionController

/-! ### Runs -/

/-- A controller, the permits that are still held and the time of the last call. -/
structure Ledger where
  controller : AdmissionController
  permits : List IpKey
  clock : ℕ

/-- Calls of the controller. -/
inductive Input
  | acquire (ip : IpAddr) (now : ℕ)
  | drop (index : ℕ)

def step (l : Ledger) : Input → Ledger
  | .acquire ip now =>
    match l.controller.tryAcquireAt ip now with
    | (c, .ok permit) => ⟨c, permit :: l.permits, now⟩
    | (c, .error _) => ⟨c, l.permits, now⟩
  | .drop index =>
    match l.permits[index]? with
    | none => l
    | some key => { l with
      controller := l.controller.dropPermit key, permits := l.permits.eraseIdx index }

def machine : Machine Ledger Input where
  init l := l.controller.entries = ∅ ∧ l.permits = []
  step := step

/-- Calls come at non-decreasing times. -/
def Timely (l : Ledger) : Input → Prop
  | .acquire _ now => l.clock ≤ now
  | .drop _ => True

/-- Entries count the permits that are held, within the limits. -/
structure Balanced (l : Ledger) : Prop where
  counts : ∀ key, l.controller.activeOf key = l.permits.count key
  active : ∀ key, l.controller.activeOf key ≤ l.controller.maxActive
  room : size l.controller.entries ≤ l.controller.maxEntries

theorem balanced_step (h : Balanced l) (input : Input) : Balanced (step l input) := by
  cases input with
  | acquire ip now =>
    have hl := l.controller.sameLimits_tryAcquireAt ip now
    have hc := l.controller.counts_tryAcquireAt ip now
    have hr := l.controller.size_tryAcquireAt ip now h.room
    unfold step
    dsimp only
    cases hca : l.controller.tryAcquireAt ip now with
    | mk c result =>
      rw [hca] at hl hc hr
      rcases hc with ⟨e, rfl, hs⟩ | ⟨rfl, hlt, hg⟩
      · refine ⟨fun key => (hs key).trans (h.counts key), fun key => ?_, ?_⟩
        · rw [hl.maxActive, hs]; exact h.active key
        · rw [hl.maxEntries]; exact hr
      · refine ⟨fun key => ?_, fun key => ?_, ?_⟩
        · rw [hg, h.counts, List.count_cons]
          simp only [beq_iff_eq, @eq_comm _ key]
        · rw [hl.maxActive, hg]
          have := h.active key
          split_ifs with hk
          · rw [hk]; exact hlt
          · exact this
        · rw [hl.maxEntries]; exact hr
  | drop index =>
    unfold step
    dsimp only
    cases hke : l.permits[index]? with
    | none => exact h
    | some key =>
      have hl := l.controller.sameLimits_dropPermit key
      obtain ⟨hi, hge⟩ := List.getElem?_eq_some_iff.mp hke
      refine ⟨fun key' => ?_, fun key' => ?_, ?_⟩
      · dsimp only
        have hp := (List.getElem_cons_eraseIdx_perm hi).count_eq key'
        rw [hge, List.count_cons] at hp
        simp only [beq_iff_eq, @eq_comm _ key] at hp
        rw [AdmissionController.activeOf_dropPermit, h.counts]
        omega
      · rw [hl.maxActive, AdmissionController.activeOf_dropPermit]
        exact (Nat.sub_le _ _).trans (h.active key')
      · rw [hl.maxEntries, AdmissionController.size_dropPermit]
        exact h.room

theorem balanced_of_reach {guard : Ledger → Input → Prop} (h : machine.Reach guard l) :
    Balanced l := by
  refine Machine.Reach.invariant (I := Balanced) ?_ (fun l input hl _ => balanced_step hl input) h
  rintro ⟨c, permits, clock⟩ ⟨he, hp⟩
  dsimp only at he hp
  refine ⟨fun key => ?_, fun key => ?_, ?_⟩ <;> dsimp only
  · rw [hp]; simp [AdmissionController.activeOf, he]
  · simp [AdmissionController.activeOf, he]
  · rw [he]; exact Nat.zero_le _

/-- A key that may not be reclaimed by `now`: it holds a permit or its bucket would not be full. -/
def busy (l : Ledger) (now : ℕ) (key : IpKey) (e : Entry) : Bool :=
  key ∈ l.permits || l.controller.refilled e now < l.controller.burst

/-- A call that is refused for want of room finds the table full of keys that may not be
reclaimed. -/
def RejectsFairly (l : Ledger) (ip : IpAddr) (now : ℕ) : Prop :=
  (l.controller.tryAcquireAt ip now).2 = .error .table →
    l.controller.maxEntries ≤ countP l.controller.entries (busy l now)

theorem Balanced.active_ne_zero (h : Balanced l) (he : l.controller.entries.lookup key = some e) :
    e.active ≠ 0 ↔ key ∈ l.permits := by
  have hc := h.counts key
  unfold AdmissionController.activeOf at hc
  rw [he] at hc
  rw [← List.count_pos_iff, ← hc]
  exact Nat.pos_iff_ne_zero.symm

/-- **When idle visitors lock nobody out.** In every history a call is treated fairly exactly if its
key has an entry, the table has room, no key without a permit would have a full bucket by now, or some
key without a permit was left with a full bucket. -/
theorem table_rejection_iff (l : Ledger) (h : machine.Reach Timely l) (ip : IpAddr) (now : ℕ) :
    RejectsFairly l ip now ↔
      (l.controller.entries.lookup (l.controller.key ip)).isSome ∨
      size l.controller.entries < l.controller.maxEntries ∨
      (∀ key e, l.controller.entries.lookup key = some e → key ∉ l.permits →
        l.controller.refilled e now < l.controller.burst) ∨
      ∃ key e, l.controller.entries.lookup key = some e ∧ key ∉ l.permits ∧
        (l.controller.burst : ℚ) ≤ e.tokens := by
  have hl := balanced_of_reach h
  have ht := l.controller.table_iff ip now hl.room
  have hb : ∀ {key e}, busy l now key e = true ↔
      (key ∉ l.permits → l.controller.refilled e now < l.controller.burst) := by
    intro key e
    simp only [busy, Bool.or_eq_true, decide_eq_true_eq, or_iff_not_imp_left]
  constructor
  · intro hf
    by_contra hc
    push Not at hc
    obtain ⟨hn, hfu, ⟨key, e, he, hi, hre⟩, hs⟩ := hc
    have hr := ht.mpr ⟨Option.not_isSome_iff_eq_none.mp hn,
      le_antisymm hl.room hfu, fun key e he => ?_⟩
    · -- the table is as large as the number of busy keys, so the idle key is busy
      have ha := size_le_countP_iff.mp (hl.room.trans (hf hr)) key e he
      exact absurd (hb.mp ha hi) (not_lt.mpr hre)
    · by_cases hke : key ∈ l.permits
      · exact .inl ((hl.active_ne_zero he).mpr hke)
      · exact .inr (hs key e he hke)
  · intro hc hr
    obtain ⟨hn, hsi, hret⟩ := ht.mp hr
    rcases hc with hk | hro | ha | ⟨key, e, he, hi, hs⟩
    · rw [hn] at hk
      cases hk
    · exact absurd hsi hro.ne
    · rw [← hsi]
      exact size_le_countP_iff.mpr fun key e he => hb.mpr (ha key e he)
    rcases hret key e he with hac | hto
    · exact absurd ((hl.active_ne_zero he).mp hac) hi
    · exact absurd hto (not_lt.mpr hs)

def visited : Ledger :=
  machine.run ⟨.new 8 1 2 1 64, [], 0⟩ [.acquire (.v4 1) 0, .drop 0]

theorem reach_visited : machine.Reach Timely visited :=
  Machine.reach_run _ (.start ⟨rfl, rfl⟩) ⟨Nat.le_refl 0, trivial, trivial⟩

/-- A year later the visitor's bucket would long be full, and still nobody else is let in. -/
theorem past_visitor_locks_out : ¬ RejectsFairly visited (.v4 2) (31536000 * 1000000000) := by
  intro h
  exact absurd (h (by decide +kernel)) (by decide +kernel)

/-- As soon as the visitor calls again, its entry is the one that counts. -/
theorem table_rejection_iff_visited : RejectsFairly visited (.v4 1) 5 :=
  (table_rejection_iff visited reach_visited (.v4 1) 5).mpr (.inl (by decide +kernel))

end Rnet.Transport.Admission
