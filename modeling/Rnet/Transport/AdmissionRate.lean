import Mathlib.Algebra.Order.Field.Rat
import Mathlib.Tactic.Linarith
import Mathlib.Tactic.Positivity
import Rnet.Transport.Admission

/-! # The rate of admissions

The tokens that a key would find are a potential: time adds the refill to it up to the burst, an
admission takes one, and nothing else moves it. A reclaim does not: it only drops buckets that are
full, and a key that comes back begins with a full one. -/

namespace Rnet.Transport.Admission

open Lib.FiniteMap Lib.GuardedRun Config

/-! ### Tokens -/

namespace AdmissionController

variable (c : AdmissionController) (key : IpKey) (now : ℕ)

/-- The tokens that come in during `elapsed` nanoseconds. -/
def refill (elapsed : ℕ) : ℚ := (elapsed : ℚ) / 1000000000 * c.refillPerSecond

theorem refill_nonneg (elapsed : ℕ) : 0 ≤ c.refill elapsed := by
  unfold refill
  positivity

theorem refill_add (a b : ℕ) : c.refill (a + b) = c.refill a + c.refill b := by
  rw [refill, refill, refill, ← add_mul, ← add_div, Nat.cast_add]

/-- The tokens a call of `key` finds. -/
def available : ℚ := c.refilled ((c.entries.lookup key).getD ⟨0, c.burst, now⟩) now

theorem available_le : c.available key now ≤ c.burst := min_le_right _ _

theorem refilled_now (e : Entry) (he : e.updatedAt = now) :
    c.refilled e now = min e.tokens c.burst := by
  simp [refilled, he]

theorem available_none (h : c.entries.lookup key = none) : c.available key now = c.burst := by
  rw [available, h, Option.getD_none, refilled_now _ _ _ rfl, min_self]

theorem available_some (h : c.entries.lookup key = some e) :
    c.available key now = min (e.tokens + c.refill (now - e.updatedAt)) c.burst := by
  rw [available, h]
  rfl

/-- Time does no more than the refill. -/
theorem available_later (h : now ≤ later) :
    c.available key later ≤ c.available key now + c.refill (later - now) := by
  have hp := c.refill_nonneg (later - now)
  cases he : c.entries.lookup key with
  | none =>
    rw [available_none c key later he, available_none c key now he]
    linarith
  | some e =>
    have ha := c.refill_add (later - e.updatedAt) (now - e.updatedAt + (later - now) -
      (later - e.updatedAt))
    have hn := c.refill_nonneg (now - e.updatedAt + (later - now) - (later - e.updatedAt))
    rw [Nat.add_sub_cancel' (by omega), refill_add] at ha
    rw [available_some c key later he, available_some c key now he, ← min_add_add_right]
    exact min_le_min (by linarith) (by linarith)

theorem available_insert (key' : IpKey) (he : e.updatedAt = now) :
    available { c with entries := c.entries.insert key' e } key now =
      if key = key' then min e.tokens c.burst else c.available key now := by
  unfold available
  rw [lookup_insert_ite]
  split_ifs
  · exact c.refilled_now now e he
  · rfl

/-- A dropped bucket was full. -/
theorem available_reclaim : c.reclaim.available key now = c.available key now := by
  have hl : c.reclaim.entries.lookup key = (c.entries.lookup key).filter c.retains :=
    lookup_filter c.entries (fun _ e => c.retains e) key
  cases he : c.entries.lookup key with
  | none =>
    rw [he] at hl
    rw [available_none c key now he, available_none c.reclaim key now hl]
    rfl
  | some e =>
    rw [he] at hl
    by_cases hr : c.retains e = true
    · rw [Option.filter_some_pos hr] at hl
      rw [available_some c key now he, available_some c.reclaim key now hl]
      rfl
    · rw [Option.filter_some_neg (Bool.eq_false_iff.mpr hr)] at hl
      simp only [retains, Bool.or_eq_true, decide_eq_true_eq, not_or, not_lt] at hr
      rw [available_none c.reclaim key now hl, available_some c key now he,
        min_eq_right (hr.2.trans (le_add_of_nonneg_right (c.refill_nonneg _)))]
      rfl

/-- A call takes a token that is there if it succeeds, and else none. -/
def Takes (r : AdmissionController × Except AdmissionReject IpKey) : Prop :=
  (∃ e, r.2 = .error e ∧ ∀ key, r.1.available key now = c.available key now) ∨
    (r.2 = .ok key ∧ 1 ≤ c.available key now ∧
      ∀ key', r.1.available key' now = c.available key' now - if key' = key then 1 else 0)

theorem takes_admitKey : c.Takes key now (c.admitKey key now) := by
  have hm := c.available_le key now
  have hs : ∀ key', (if key' = key then min (c.available key now) c.burst
      else c.available key' now) = c.available key' now := by
    intro key'
    split_ifs with hk
    · rw [min_eq_left hm, hk]
    · rfl
  unfold admitKey
  dsimp only
  split_ifs with _ ht
  · exact .inl ⟨.active, rfl, fun key' => (c.available_insert key' now key rfl).trans (hs key')⟩
  · exact .inl ⟨.rate, rfl, fun key' => (c.available_insert key' now key rfl).trans (hs key')⟩
  refine .inr ⟨rfl, not_lt.mp ht, fun key' => (c.available_insert key' now key rfl).trans ?_⟩
  change (if key' = key then min (c.available key now - 1) c.burst else _) = _
  split_ifs with hk
  · rw [min_eq_left (by linarith), hk]
  · rw [sub_zero]

theorem takes_tryAcquireAt (ip : IpAddr) : c.Takes (c.key ip) now (c.tryAcquireAt ip now) := by
  unfold tryAcquireAt
  split_ifs
  · exact .inl ⟨.table, rfl, fun key => c.available_reclaim key now⟩
  · have h := c.reclaim.takes_admitKey (c.key ip) now
    simp only [Takes, available_reclaim] at h
    exact h
  · exact c.takes_admitKey (c.key ip) now

theorem available_dropPermit (key' : IpKey) :
    (c.dropPermit key').available key now = c.available key now := by
  unfold dropPermit
  split
  · rfl
  rename_i e he
  unfold available
  rw [lookup_insert_ite]
  split_ifs with hk
  · rw [hk, he]
    rfl
  · rfl

end AdmissionController

/-! ### Windows -/

/-- How often `key` is admitted in a run. -/
def admissions (key : IpKey) : Ledger → List Input → ℕ
  | _, [] => 0
  | l, .acquire ip now :: inputs =>
    (if (l.controller.tryAcquireAt ip now).2 = .ok key then 1 else 0) +
      admissions key (step l (.acquire ip now)) inputs
  | l, .drop index :: inputs => admissions key (step l (.drop index)) inputs

theorem step_acquire (l : Ledger) (ip : IpAddr) (now : ℕ) :
    (step l (.acquire ip now)).controller = (l.controller.tryAcquireAt ip now).1 ∧
      (step l (.acquire ip now)).clock = now := by
  unfold step
  dsimp only
  split <;> rename_i hc <;> rw [hc] <;> exact ⟨rfl, rfl⟩

theorem step_drop (l : Ledger) (index : ℕ) : (step l (.drop index)).clock = l.clock ∧
    l.controller.SameLimits (step l (.drop index)).controller ∧ ∀ key now,
      (step l (.drop index)).controller.available key now = l.controller.available key now := by
  unfold step
  dsimp only
  split
  · exact ⟨rfl, ⟨rfl, rfl, rfl, rfl, rfl⟩, fun _ _ => rfl⟩
  · exact ⟨rfl, l.controller.sameLimits_dropPermit _, fun key now =>
      l.controller.available_dropPermit key now _⟩

theorem clock_le_of_runs (hr : machine.Runs Timely l inputs) (hm : .acquire ip now ∈ inputs) :
    l.clock ≤ now := by
  induction inputs generalizing l with
  | nil => cases hm
  | cons input inputs ih =>
  rcases List.mem_cons.mp hm with rfl | hm
  · exact hr.1
  have hc : (step l input).clock ≤ now := ih hr.2 hm
  cases input with
  | acquire ip' now' => exact hr.1.trans ((step_acquire l ip' now').2 ▸ hc)
  | drop index => exact (step_drop l index).1 ▸ hc

/-- **The tokens pay for the admissions** up to `stop`. -/
theorem admissions_le (key : IpKey) (hr : machine.Runs Timely l inputs) (hs : start ≤ stop)
    (hw : ∀ ip now, .acquire ip now ∈ inputs → start ≤ now ∧ now ≤ stop) :
    (admissions key l inputs : ℚ) ≤
      max 0 (l.controller.available key start) + l.controller.refill (stop - start) := by
  induction inputs generalizing l start with
  | nil =>
    rw [admissions, Nat.cast_zero]
    exact add_nonneg (le_max_left _ _) (l.controller.refill_nonneg _)
  | cons input inputs ih =>
  cases input with
  | acquire ip now =>
    obtain ⟨hn, hl⟩ := hw ip now List.mem_cons_self
    obtain ⟨hc, hk⟩ := step_acquire l ip now
    have ih : (admissions key (step l (.acquire ip now)) inputs : ℚ) ≤
        max 0 ((step l (.acquire ip now)).controller.available key now) +
          (step l (.acquire ip now)).controller.refill (stop - now) :=
      ih hr.2 hl fun ip' now' hm => ⟨hk ▸ clock_le_of_runs hr.2 hm,
        (hw ip' now' (List.mem_cons_of_mem _ hm)).2⟩
    rw [AdmissionController.refill, hc,
      (l.controller.sameLimits_tryAcquireAt ip now).refillPerSecond] at ih
    change _ ≤ _ + l.controller.refill (stop - now) at ih
    -- what there is at the call: what there was at the start, and the refill since
    have hg : max 0 (l.controller.available key now) ≤
        max 0 (l.controller.available key start) + l.controller.refill (now - start) :=
      max_le (add_nonneg (le_max_left _ _) (l.controller.refill_nonneg _))
        ((l.controller.available_later key start hn).trans (add_le_add_left (le_max_right _ _) _))
    have hm := le_max_right 0 (l.controller.available key now)
    rw [show stop - start = now - start + (stop - now) by omega, AdmissionController.refill_add]
    unfold admissions
    push_cast
    rcases l.controller.takes_tryAcquireAt now ip with ⟨e, he, ha⟩ | ⟨hok, hone, ha⟩
    · rw [ha] at ih
      rw [he, if_neg (by simp)]
      linarith
    · rw [ha] at ih
      rw [hok]
      by_cases he : key = l.controller.key ip
      · subst he
        rw [if_pos rfl, max_eq_right (by linarith)] at ih
        rw [if_pos rfl]
        linarith
      · rw [if_neg he, sub_zero] at ih
        rw [if_neg (by simpa using Ne.symm he)]
        linarith
  | drop index =>
    obtain ⟨-, hl, ha⟩ := step_drop l index
    have ih := ih hr.2 hs fun ip now hm => hw ip now (List.mem_cons_of_mem _ hm)
    rw [← ha, AdmissionController.refill, ← hl.refillPerSecond]
    exact ih

/-- **Admissions are bounded.** In every history the entry of a key counts the permits of the key that
are held, within the limits of the key and of the table, and in a window of `t` nanoseconds a key is
admitted at most as often as the burst and the refill of the window allow, whether or not its entry is
reclaimed in between. -/
theorem admissions_bounded {l : Ledger} {inputs : List Input} {start t : ℕ}
    (h : machine.Reach Timely l) (hr : machine.Runs Timely l inputs)
    (hw : ∀ ip now, .acquire ip now ∈ inputs → start ≤ now ∧ now ≤ start + t) (key : IpKey) :
    Balanced (machine.run l inputs) ∧ (admissions key l inputs : ℚ) ≤
      l.controller.burst + (t : ℚ) / 1000000000 * l.controller.refillPerSecond := by
  refine ⟨balanced_of_reach (Machine.reach_run inputs h hr), ?_⟩
  have ha := admissions_le key hr (Nat.le_add_right start t) hw
  rw [Nat.add_sub_cancel_left] at ha
  exact ha.trans (add_le_add_left (max_le (Nat.cast_nonneg _)
    (l.controller.available_le key start)) _)

/-- Three calls when there are two tokens. -/
def calls : List Input := List.replicate 3 (.acquire (.v4 1) 5)

theorem admissions_bounded_calls :
    admissions (.v4 1) ⟨.new 8 1 2 1 64, [], 0⟩ calls = 2 ∧
      (admissions (.v4 1) ⟨.new 8 1 2 1 64, [], 0⟩ calls : ℚ) ≤
        ((2 : ℕ) : ℚ) + ((0 : ℕ) : ℚ) / 1000000000 * ((1 : ℕ) : ℚ) := by
  have hr : machine.Runs Timely ⟨.new 8 1 2 1 64, [], 0⟩ calls :=
    ⟨Nat.zero_le 5, (step_acquire _ _ _).2.le, (step_acquire _ _ _).2.le, trivial⟩
  have hw : ∀ ip now, Input.acquire ip now ∈ calls → 5 ≤ now ∧ now ≤ 5 + 0 := by
    intro ip now hm
    cases List.eq_of_mem_replicate hm
    exact ⟨le_rfl, le_rfl⟩
  exact ⟨by decide +kernel, (admissions_bounded (.start ⟨rfl, rfl⟩) hr hw (.v4 1)).2⟩

end Rnet.Transport.Admission
