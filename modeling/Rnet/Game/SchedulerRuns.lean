import Rnet.Game.Scheduler
import Rnet.Lib.GuardedRun

/-! # Runs of the scheduler

Senders stage messages at any time. The owner of the poll lock takes one message at a time, asks the
transport and gives the answer back, so at most one message is outstanding. `Kept` says that the
gauges are the sums over staged and outstanding messages, within the budgets, and that every class
is a sound round robin; every operation keeps it. The order of one session and class is kept as long
as the transport returns no message behind which others of the same session and class wait. -/

namespace Rnet.Game.SchedulerRuns

open Rnet.Core Lib.FiniteMap Lib.GuardedRun Lib.KeyedQueues Scheduler ScheduledQueue

/-! ### What a selection does -/

/-- Every class is a sound round robin of its own messages. -/
structure Sound (q : ScheduledQueue) : Prop where
  classes : ∀ p, (q.queues p).Sound
  own : ∀ p s, ∀ m ∈ (q.queues p).line s, m.session = s ∧ m.priority = p

/-- The class of a slot of the weighted order, counted without bound. -/
def turnAt (i : ℕ) : GamePriority := weightedOrder.getD (i % weightedOrder.length) .low

theorem exists_turnAt (p : GamePriority) (i : ℕ) : ∃ e < weightedOrder.length, turnAt (i + e) = p := by
  have h : ∀ i < weightedOrder.length, ∃ e < weightedOrder.length, turnAt (i + e) = p := by
    cases p <;> decide
  obtain ⟨e, he, ht⟩ := h (i % weightedOrder.length) (Nat.mod_lt _ (by decide))
  refine ⟨e, he, ?_⟩
  rwa [turnAt, Nat.mod_add_mod] at ht

variable {q q' : ScheduledQueue} {m : ScheduledMessage}

def taken (q : ScheduledQueue) (d : ℕ) (m : ScheduledMessage) (class' : FairPriorityQueue) :
    ScheduledQueue :=
  { q with
    cursor := (q.cursor + d + 1) % weightedOrder.length
    queues := Function.update q.queues m.priority class' }

/-- **A selection takes the head of the first class in turn that is not empty.** -/
theorem select_cases (h : Sound q) (hc : q.cursor < weightedOrder.length) (slots : ℕ) :
    (∃ d < slots, ∃ m class', (∀ e < d, (q.queues (turnAt (q.cursor + e))).order = []) ∧
      m.priority = turnAt (q.cursor + d) ∧ (q.queues m.priority).pop = some (class', some m) ∧
      select slots q = some (taken q d m class', some m)) ∨
    (∀ e < slots, (q.queues (turnAt (q.cursor + e))).order = []) ∧
      select slots q = some ({ q with cursor := (q.cursor + slots) % weightedOrder.length }, none) := by
  induction slots generalizing q with
  | zero => exact .inr ⟨nofun, by rw [select, Nat.add_zero, Nat.mod_eq_of_lt hc]⟩
  | succ slots ih =>
    have ht : q.turn = turnAt q.cursor := by rw [turnAt, Nat.mod_eq_of_lt hc]; rfl
    cases ho : (q.queues q.turn).order with
    | cons k order =>
      obtain ⟨m, rest, class', hl, hp, -⟩ := (h.classes q.turn).pop ho
      have hm : m.priority = q.turn := (h.own _ _ m (by rw [hl]; exact List.mem_cons_self)).2
      refine .inl ⟨0, by omega, m, class', nofun, by rw [hm, ht, Nat.add_zero], by rw [hm, hp], ?_⟩
      simp only [select, hp, taken, hm, Nat.add_zero]
    | nil =>
      have hn : (q.cursor + 1) % weightedOrder.length < weightedOrder.length :=
        Nat.mod_lt _ (by decide)
      have hs : select (slots + 1) q =
          select slots { q with cursor := (q.cursor + 1) % weightedOrder.length } := by
        simp only [select, RoundRobin.pop_nil ho]
      have hturn : ∀ e, turnAt ((q.cursor + 1) % weightedOrder.length + e) =
          turnAt (q.cursor + (e + 1)) := by
        intro e
        rw [turnAt, turnAt, Nat.mod_add_mod, Nat.add_assoc, Nat.add_comm 1]
      have hfirst : ∀ {d}, (∀ e < d, (q.queues (turnAt (q.cursor + (e + 1)))).order = []) →
          ∀ e < d + 1, (q.queues (turnAt (q.cursor + e))).order = [] := by
        intro d hd e he
        cases e with
        | zero => rw [Nat.add_zero, ← ht, ho]
        | succ e => exact hd e (by omega)
      rw [hs]
      rcases @ih { q with cursor := (q.cursor + 1) % weightedOrder.length } ⟨h.classes, h.own⟩ hn with
        ⟨d, hd, m, class', hskip, hm, hp, hsel⟩ | ⟨hskip, hsel⟩
      · simp only [hturn] at hskip hm
        refine .inl ⟨d + 1, by omega, m, class', hfirst hskip, hm, hp, ?_⟩
        rw [hsel, taken, taken]
        simp only [Nat.mod_add_mod, Nat.add_assoc, Nat.add_comm 1]
      · simp only [hturn] at hskip
        refine .inr ⟨hfirst hskip, ?_⟩
        rw [hsel]
        simp only [Nat.mod_add_mod, Nat.add_assoc, Nat.add_comm 1]

/-- What `pop` selects. -/
structure Selected (q : ScheduledQueue) (m : ScheduledMessage) (q' : ScheduledQueue) : Prop where
  sound : Sound q'
  cursor : q'.cursor < weightedOrder.length
  slot : ∃ d < weightedOrder.length, (∀ e < d, (q.queues (turnAt (q.cursor + e))).order = []) ∧
    m.priority = turnAt (q.cursor + d) ∧ q'.cursor = (q.cursor + d + 1) % weightedOrder.length
  classes : ∃ class', (q.queues m.priority).pop = some (class', some m) ∧
    q'.queues = Function.update q.queues m.priority class'
  line : (q.queues m.priority).line m.session = m :: (q'.queues m.priority).line m.session
  others : ∀ p s, ¬(p = m.priority ∧ s = m.session) → (q'.queues p).line s = (q.queues p).line s
  order : ∃ order, (q.queues m.priority).order = m.session :: order ∧
    ((q'.queues m.priority).order = order ∨ (q'.queues m.priority).order = order ++ [m.session])
  rest : q' = { q with queues := q'.queues, cursor := q'.cursor }

/-- **A selection answers**, with a message unless nothing is staged. -/
theorem select_spec (h : Sound q) (hc : q.cursor < weightedOrder.length) :
    (∃ q' m, select weightedOrder.length q = some (q', some m) ∧ Selected q m q') ∨
    (∃ c < weightedOrder.length, select weightedOrder.length q = some ({ q with cursor := c }, none)) ∧
      ∀ p s, (q.queues p).line s = [] := by
  have hlt : ∀ i, i % weightedOrder.length < weightedOrder.length := fun i =>
    Nat.mod_lt _ (by decide)
  rcases select_cases h hc weightedOrder.length with
    ⟨d, hd, m, class', hskip, hm, hp, hsel⟩ | ⟨hskip, hsel⟩
  · refine .inl ⟨_, m, hsel, ?_⟩
    cases ho : (q.queues m.priority).order with
    | nil => rw [RoundRobin.pop_nil ho] at hp; cases hp
    | cons k order =>
      obtain ⟨v, rest, c, hl, hp', hs, hlines, hord⟩ := (h.classes m.priority).pop ho
      rw [hp] at hp'
      cases hp'
      have hk : m.session = k := (h.own _ _ m (by rw [hl]; exact List.mem_cons_self)).1
      subst hk
      have hown : ∀ s, ∀ v ∈ class'.line s, v ∈ (q.queues m.priority).line s := by
        intro s v hv
        rw [hlines] at hv
        split_ifs at hv with hs
        · rw [hs, hl]; exact List.mem_cons_of_mem _ hv
        · exact hv
      refine ⟨⟨fun p => ?_, fun p s v hv => ?_⟩, hlt _, ⟨d, hd, hskip, hm, rfl⟩, ⟨class', hp, rfl⟩, ?_,
        fun p s hps => ?_, ⟨order, ho, ?_⟩, rfl⟩
      · by_cases hpm : p = m.priority
        · subst hpm; simpa [taken] using hs
        · simpa [taken, hpm] using h.classes p
      · by_cases hpm : p = m.priority
        · subst hpm; exact h.own _ _ _ (hown s v (by simpa [taken] using hv))
        · exact h.own _ _ _ (by simpa [taken, hpm] using hv)
      · simp [taken, hl, hlines]
      · by_cases hpm : p = m.priority
        · subst hpm; simp [taken, hlines, show s ≠ m.session from fun hs => hps ⟨rfl, hs⟩]
        · simp [taken, hpm]
      · simp only [taken, Function.update_self, hord]
        split_ifs
        · exact .inl rfl
        · exact .inr rfl
  · refine .inr ⟨⟨_, hlt _, hsel⟩, fun p s => ?_⟩
    obtain ⟨e, he, ht⟩ := exists_turnAt p q.cursor
    have ho := hskip e he
    rw [ht] at ho
    by_contra hne
    have hmem := (h.classes p).mem_order.mpr hne
    rw [ho] at hmem
    cases hmem

/-! ### What a pop does -/

/-- The selections of a pop, each with the queue before it. -/
def popTrace (now : Instant) : ℕ → ScheduledQueue → List (ScheduledQueue × ScheduledMessage)
  | 0, _ => []
  | fuel + 1, q =>
    match select weightedOrder.length q with
    | some (q', some m) =>
      (q, m) :: if expired now m then popTrace now fuel (q'.dropExpired m) else []
    | _ => []

/-- A pop as a chain of selections: all but the last are dropped as expired. -/
inductive Pops (now : Instant) : ScheduledQueue → ScheduledQueue → Option ScheduledMessage →
    List (ScheduledQueue × ScheduledMessage) → Prop
  | nothing {q : ScheduledQueue} {c : ℕ} (hc : c < weightedOrder.length)
    (h : ∀ p s, (q.queues p).line s = []) :
    Pops now q { q with cursor := c } none []
  | found {q q' : ScheduledQueue} {m : ScheduledMessage} (h : Selected q m q')
    (he : expired now m = false) :
    Pops now q q' (some m) [(q, m)]
  | dropped {q q' q'' : ScheduledQueue} {m : ScheduledMessage} {r : Option ScheduledMessage}
    {l : List (ScheduledQueue × ScheduledMessage)} (h : Selected q m q') (he : expired now m = true)
    (hp : Pops now (q'.dropExpired m) q'' r l) : Pops now q q'' r ((q, m) :: l)

section weights

variable (f : ScheduledMessage → ℕ)

theorem weigh_update {p : GamePriority} {c : FairPriorityQueue}
    (h : q'.queues = Function.update q.queues p c) :
    q'.weigh f + (q.queues p).weigh f = q.weigh f + RoundRobin.weigh f c := by
  unfold weigh
  rw [h]
  cases p <;> simp <;> omega

theorem weigh_stage (q : ScheduledQueue) (m : ScheduledMessage) :
    (q.stage m).weigh f = q.weigh f + f m := by
  have h := @weigh_update q (q.stage m) f _ _ rfl
  have hp := RoundRobin.weigh_push f (q.queues m.priority) m.session m
  unfold FairPriorityQueue.push at h
  omega

theorem Selected.weigh (h : Selected q m q') : q'.weigh f + f m = q.weigh f := by
  obtain ⟨c, hp, hq⟩ := h.classes
  have hu := weigh_update f hq
  have hw := RoundRobin.weigh_pop f hp
  omega

end weights

theorem Sound.of_queues (h : Sound q) (hq : q'.queues = q.queues) : Sound q' :=
  ⟨by rw [hq]; exact h.classes, by rw [hq]; exact h.own⟩

/-- **A pop ends**, and none of its expects fails. -/
theorem popNext_pops (h : Sound q) (hc : q.cursor < weightedOrder.length) (now : Instant) :
    ∃ q' r, q.popNext now = some (q', r) ∧
      Pops now q q' r (popTrace now (q.weigh (fun _ => 1) + 1) q) := by
  -- every turn of the loop takes one of the messages the fuel counts
  suffices hl : ∀ fuel q, Sound q → q.cursor < weightedOrder.length → q.weigh (fun _ => 1) < fuel →
      ∃ q' r, popLoop now fuel q = some (q', r) ∧ Pops now q q' r (popTrace now fuel q) from
    hl _ q h hc (Nat.lt_succ_self _)
  intro fuel
  induction fuel with
  | zero => intro q _ _ hf; exact absurd hf (Nat.not_lt_zero _)
  | succ fuel ih =>
    intro q h hc hf
    rcases select_spec h hc with ⟨q', m, hsel, hs⟩ | ⟨⟨c, hc', hsel⟩, hempty⟩
    · by_cases he : expired now m = true
      · have hw : (q'.dropExpired m).weigh (fun _ => 1) + 1 = q.weigh (fun _ => 1) := hs.weigh _
        obtain ⟨q'', r, hp, hps⟩ := ih (q'.dropExpired m) (hs.sound.of_queues rfl) hs.cursor (by omega)
        refine ⟨q'', r, ?_, ?_⟩
        · simp only [popLoop, hsel, he, if_true, hp]
        · simp only [popTrace, hsel, he, if_true]
          exact .dropped hs he hps
      · rw [Bool.not_eq_true] at he
        refine ⟨q', some m, ?_, ?_⟩
        · simp [popLoop, hsel, he]
        · simpa [popTrace, hsel, he] using Pops.found hs he
    · refine ⟨{ q with cursor := c }, none, ?_, ?_⟩
      · simp only [popLoop, hsel]
      · simpa only [popTrace, hsel] using Pops.nothing hc' hempty

/-! ### Accounts -/

/-- A weight counted for one session only. -/
def only (s : Handle) (f : ScheduledMessage → ℕ) (m : ScheduledMessage) : ℕ :=
  if m.session = s then f m else 0

/-- The sum of a weight over the staged messages and the outstanding one. -/
def load (q : ScheduledQueue) (x : Option ScheduledMessage) (f : ScheduledMessage → ℕ) : ℕ :=
  q.weigh f + (x.map f).getD 0

/-- The counters are exact counts, cut off at `u64::MAX`, that balance. -/
def Tallied (c : ScheduledQueueSnapshot) : Prop :=
  ∃ (a : GamePriority → ℕ) (f e s d : ℕ), (∀ p, c.admittedByPriority p = min (a p) u64Max) ∧
    c.forwarded = min f u64Max ∧ c.expiredDropped = min e u64Max ∧ c.sendFailed = min s u64Max ∧
    c.closedDropped = min d u64Max ∧
    a .low + a .normal + a .high + a .critical = c.queuedMessages + f + e + s + d

theorem satAdd_min (e n : ℕ) : satAdd (min e u64Max) n = min (e + n) u64Max := by
  unfold satAdd
  generalize u64Max = top
  omega

/-- The gauges are the sums over staged and outstanding messages, within the budgets. -/
structure Kept (q : ScheduledQueue) (x : Option ScheduledMessage) : Prop where
  sound : Sound q
  cursor : q.cursor < weightedOrder.length
  messages : q.counters.queuedMessages = load q x fun _ => 1
  bytes : q.counters.queuedBytes = load q x ScheduledMessage.reservedBytes
  session : ∀ s, q.bytesOf s = load q x (only s ScheduledMessage.reservedBytes)
  maxMessages : q.counters.queuedMessages ≤ q.maxMessages
  maxBytes : q.counters.queuedBytes ≤ q.maxTotalBytes
  maxSession : ∀ s, q.bytesOf s ≤ q.maxSessionBytes
  tallied : Tallied q.counters

variable {x : Option ScheduledMessage}

theorem Sound.stage (h : Sound q) (m : ScheduledMessage) : Sound (q.stage m) := by
  refine ⟨fun p => ?_, fun p s v hv => ?_⟩ <;> by_cases hp : p = m.priority
  · subst hp
    simpa [ScheduledQueue.stage, FairPriorityQueue.push] using (h.classes _).push m.session m
  · simpa [ScheduledQueue.stage, hp] using h.classes p
  · subst hp
    simp only [ScheduledQueue.stage, Function.update_self, FairPriorityQueue.push,
      RoundRobin.line_push] at hv
    split_ifs at hv with hs
    · rcases List.mem_append.mp hv with hv | hv
      · exact hs ▸ h.own _ _ v hv
      · rw [List.mem_singleton.mp hv]; exact ⟨hs.symm, rfl⟩
    · exact h.own _ _ v hv
  · exact h.own _ _ v (by simpa [ScheduledQueue.stage, hp] using hv)

theorem load_stage (f : ScheduledMessage → ℕ) : load (q.stage m) x f = load q x f + f m := by
  rw [load, load, weigh_stage]
  omega

theorem Kept.enqueue (h : Kept q x) (m : ScheduledMessage) : Kept (q.enqueue m).1 x := by
  unfold ScheduledQueue.enqueue
  split_ifs with hf
  · simp only [fits, Bool.and_eq_true, decide_eq_true_eq] at hf
    obtain ⟨⟨hmax, -, htotal⟩, -, hsession⟩ := hf
    have hbytes : ∀ s, (((q.sessionBytes.insert m.session
        (q.bytesOf m.session + m.reservedBytes)).lookup
        s).getD 0) = q.bytesOf s + only s ScheduledMessage.reservedBytes m := by
      intro s
      rw [lookup_insert_ite, only]
      by_cases hs : s = m.session
      · simp [hs]
      · simp [hs, Ne.symm hs, bytesOf]
    refine ⟨(h.sound.stage m).of_queues rfl, h.cursor, ?_, ?_, fun s => ?_, hmax, htotal,
      fun s => ?_, ?_⟩
    · rw [load_stage]; exact congrArg (· + 1) h.messages
    · rw [load_stage]; exact congrArg (· + m.reservedBytes) h.bytes
    · rw [load_stage]; exact (hbytes s).trans (congrArg (· + _) (h.session s))
    · refine (hbytes s).trans_le (?_ : _ ≤ q.maxSessionBytes)
      by_cases hs : m.session = s
      · subst hs; simpa [only] using hsession
      · simpa [only, hs] using h.maxSession s
    · obtain ⟨a, f, e, s, d, ha, hf, he, hs, hd, hsum⟩ := h.tallied
      refine ⟨Function.update a m.priority (a m.priority + 1), f, e, s, d, fun p => ?_, hf, he,
        hs, hd, ?_⟩
      · by_cases hp : p = m.priority
        · subst hp
          simp only [ScheduledQueue.stage, bump, Function.update_self, ha, satAdd_min]
        · simp [ScheduledQueue.stage, bump, hp, ha]
      · show _ = q.counters.queuedMessages + 1 + f + e + s + d
        cases m.priority <;> simp <;> omega
  · exact ⟨h.sound.of_queues rfl, h.cursor, h.messages, h.bytes, h.session, h.maxMessages, h.maxBytes,
      h.maxSession, h.tallied⟩

theorem Kept.select (h : Kept q none) (hs : Selected q m q') : Kept q' (some m) := by
  have hl : ∀ f, load q' (some m) f = load q none f := fun f => hs.weigh f
  have hr := hs.rest
  have hc : q'.counters = q.counters := by rw [hr]
  have hb : ∀ s, q'.bytesOf s = q.bytesOf s := fun s => by rw [hr]; rfl
  refine ⟨hs.sound, hs.cursor, ?_, ?_, fun s => ?_, ?_, ?_, fun s => ?_, hc ▸ h.tallied⟩
  · rw [hl, hc]; exact h.messages
  · rw [hl, hc]; exact h.bytes
  · rw [hl, hb]; exact h.session s
  · rw [hc, hr]; exact h.maxMessages
  · rw [hc, hr]; exact h.maxBytes
  · rw [hb, hr]; exact h.maxSession s

theorem Kept.requeue (h : Kept q (some m)) : Kept (q.requeue m) none := by
  have hl : ∀ f, load (q.requeue m) none f = load q (some m) f := fun f => weigh_stage f _ m
  refine ⟨(h.sound.stage m).of_queues rfl, h.cursor, ?_, ?_, fun s => ?_, h.maxMessages, h.maxBytes,
    h.maxSession, h.tallied⟩
  · rw [hl]; exact h.messages
  · rw [hl]; exact h.bytes
  · rw [hl]; exact h.session s

theorem bytesOf_release (q : ScheduledQueue) (m : ScheduledMessage) (s : Handle) :
    (q.release m).bytesOf s = q.bytesOf s - only s ScheduledMessage.reservedBytes m := by
  unfold release bytesOf only
  cases hl : q.sessionBytes.lookup m.session with
  | none =>
    by_cases hs : m.session = s
    · subst hs; simp [hl]
    · simp [hs]
  | some n =>
    by_cases hn : n - m.reservedBytes = 0 <;> by_cases hs : m.session = s
    · subst hs; simp [hn, hl]
    · simp [hn, hs, Ne.symm hs]
    · subst hs; simp [hn, hl]
    · simp [hn, hs, Ne.symm hs]

section

variable (h : Kept q (some m))
include h

theorem Kept.release (hm : c.queuedMessages = q.counters.queuedMessages - 1)
    (hb : c.queuedBytes = q.counters.queuedBytes - m.reservedBytes) (ht : Tallied c) :
    Kept { q.release m with counters := c } none := by
  have hl : ∀ f, load { q.release m with counters := c } none f = load q (some m) f - f m :=
    fun f => (Nat.add_sub_cancel _ _).symm
  have hs : ∀ s, ScheduledQueue.bytesOf { q.release m with counters := c } s =
      q.bytesOf s - only s ScheduledMessage.reservedBytes m := bytesOf_release q m
  refine ⟨h.sound.of_queues rfl, h.cursor, ?_, ?_, fun s => ?_, ?_, ?_, fun s => ?_, ht⟩
  · rw [hl, hm, h.messages]
  · rw [hl, hb, h.bytes]
  · rw [hl, hs, h.session]
  · exact hm.trans_le ((Nat.sub_le _ _).trans h.maxMessages)
  · exact hb.trans_le ((Nat.sub_le _ _).trans h.maxBytes)
  · exact (hs s).trans_le ((Nat.sub_le _ _).trans (h.maxSession s))

theorem Kept.pos : 0 < q.counters.queuedMessages := by
  rw [h.messages, load]
  exact Nat.succ_pos _

theorem Kept.dropExpired : Kept (q.dropExpired m) none := by
  have hp := h.pos
  obtain ⟨a, f, e, s, d, ha, hf, he, hs, hd, hsum⟩ := h.tallied
  refine h.release rfl rfl ⟨a, f, e + 1, s, d, ha, hf, ?_, hs, hd, ?_⟩
  · simp only [ScheduledQueue.release, he, satAdd_min]
  · simp only [ScheduledQueue.release]; omega

theorem Kept.recordForwarded : Kept (q.recordForwarded m) none := by
  have hp := h.pos
  obtain ⟨a, f, e, s, d, ha, hf, he, hs, hd, hsum⟩ := h.tallied
  refine h.release rfl rfl ⟨a, f + 1, e, s, d, ha, ?_, he, hs, hd, ?_⟩
  · simp only [ScheduledQueue.release, hf, satAdd_min]
  · simp only [ScheduledQueue.release]; omega

theorem Kept.recordSendFailed : Kept (q.recordSendFailed m) none := by
  have hp := h.pos
  obtain ⟨a, f, e, s, d, ha, hf, he, hs, hd, hsum⟩ := h.tallied
  refine h.release rfl rfl ⟨a, f, e, s + 1, d, ha, hf, he, ?_, hd, ?_⟩
  · simp only [ScheduledQueue.release, hs, satAdd_min]
  · simp only [ScheduledQueue.release]; omega

end

theorem Kept.pops (h : Kept q none) (hp : Pops now q q' x l) : Kept q' x := by
  induction hp with
  | nothing hc => exact ⟨h.sound.of_queues rfl, hc, h.messages, h.bytes, h.session, h.maxMessages,
      h.maxBytes, h.maxSession, h.tallied⟩
  | found hs => exact h.select hs
  | dropped hs _ _ ih => exact ih (h.select hs).dropExpired

theorem Sound.forget (h : Sound q) (s : Handle) : Sound (q.forgetSession s) := by
  refine ⟨fun p => (h.classes p).remove s, fun p j v hv => h.own p j v ?_⟩
  simp only [forgetSession, RoundRobin.line_remove] at hv
  split_ifs at hv
  · cases hv
  · exact hv

theorem weigh_only (h : Sound q) (s : Handle) (f : ScheduledMessage → ℕ) (p : GamePriority) :
    RoundRobin.weigh (only s f) (q.queues p) = (((q.queues p).line s).map f).sum := by
  rw [RoundRobin.weigh_eq_line (k := s)]
  · refine congrArg List.sum (List.map_congr_left fun v hv => ?_)
    simp [only, (h.own p s v hv).1]
  · intro j hj v hv
    simp [only, (h.own p j v hv).1, hj]

theorem weigh_forget (h : Sound q) (s : Handle) (f : ScheduledMessage → ℕ) :
    (q.forgetSession s).weigh f + q.weigh (only s f) = q.weigh f := by
  have hw := fun p => RoundRobin.weigh_remove f (q.queues p) s
  simp only [weigh, weigh_only h, forgetSession]
  have h₁ := hw .low
  have h₂ := hw .normal
  have h₃ := hw .high
  have h₄ := hw .critical
  omega

theorem weigh_only_forget (h : Sound q) (s j : Handle) (f : ScheduledMessage → ℕ) :
    (q.forgetSession s).weigh (only j f) = if j = s then 0 else q.weigh (only j f) := by
  simp only [weigh, weigh_only (h.forget s), weigh_only h]
  simp only [forgetSession, RoundRobin.line_remove]
  split_ifs <;> rfl

theorem lengthOf_eq (h : Sound q) (s : Handle) : q.lengthOf s = q.weigh (only s fun _ => 1) := by
  simp [weigh, weigh_only h, lengthOf]

theorem Tallied.close (h : Tallied c) (hn : n ≤ c.queuedMessages) :
    Tallied { c with
      queuedBytes := b
      queuedMessages := c.queuedMessages - n
      closedDropped := satAdd c.closedDropped n } := by
  obtain ⟨a, f, e, s, d, ha, hf, he, hs, hd, hsum⟩ := h
  refine ⟨a, f, e, s, d + n, ha, hf, he, hs, ?_, ?_⟩
  · simp only [hd, satAdd_min]
  · simp only; omega

theorem Kept.forget (h : Kept q none) (s : Handle) : Kept (q.forgetSession s) none := by
  have hw := weigh_forget h.sound s
  have hn := lengthOf_eq h.sound s
  have hm := hw fun _ => 1
  have hb := hw ScheduledMessage.reservedBytes
  have hm' : q.counters.queuedMessages = q.weigh fun _ => 1 := h.messages
  have hb' : q.counters.queuedBytes = q.weigh ScheduledMessage.reservedBytes := h.bytes
  have hs' : ∀ j, q.bytesOf j = q.weigh (only j ScheduledMessage.reservedBytes) := h.session
  have hbytes : ∀ j, (q.forgetSession s).bytesOf j = if j = s then 0 else q.bytesOf j := by
    intro j
    simp only [forgetSession, bytesOf, lookup_erase_ite]
    split_ifs <;> rfl
  refine ⟨h.sound.forget s, h.cursor, ?_, ?_, fun j => ?_, ?_, ?_, fun j => ?_,
    h.tallied.close (by omega)⟩
  · show q.counters.queuedMessages - q.lengthOf s = (q.forgetSession s).weigh _
    omega
  · show q.counters.queuedBytes - q.bytesOf s = (q.forgetSession s).weigh _
    have := hs' s
    omega
  · rw [hbytes, hs', load, weigh_only_forget h.sound]
    rfl
  · exact (Nat.sub_le _ _).trans h.maxMessages
  · exact (Nat.sub_le _ _).trans h.maxBytes
  · rw [hbytes]
    split_ifs
    · exact Nat.zero_le _
    · exact h.maxSession j

theorem Kept.clear (h : Kept q none) : Kept q.clear none := by
  refine ⟨⟨fun _ => RoundRobin.sound_empty, fun p s m hm => by cases hm⟩, h.cursor, rfl, rfl,
    fun s => rfl, Nat.zero_le _, Nat.zero_le _, fun s => Nat.zero_le _, ?_⟩
  have ht := h.tallied.close (b := 0) le_rfl
  rw [Nat.sub_self] at ht
  exact ht

/-! ### Runs -/

/-- What the network says to a message. -/
inductive Answer
  | accepted | wouldBlock | failed

/-- Calls of the scheduler. -/
inductive Input
  | enqueue (m : ScheduledMessage)
  | pop (now : Instant)
  | answer (a : Answer)
  | forget (session : Handle)
  | clear

/-- The queue, the message the transport is asked to take, what was admitted and forwarded so far, the
message the last answer returned, and the selections so far. -/
structure World where
  queue : ScheduledQueue
  outstanding : Option ScheduledMessage := none
  returned : Option ScheduledMessage := none
  admitted : List ScheduledMessage := []
  forwarded : List ScheduledMessage := []
  selected : List (ScheduledQueue × ScheduledMessage) := []

def answered (w : World) (m : ScheduledMessage) : Answer → World
  | .accepted =>
    { w with
      queue := w.queue.recordForwarded m
      outstanding := none
      returned := none
      forwarded := w.forwarded ++ [m] }
  | .wouldBlock =>
    { w with queue := w.queue.requeue m, outstanding := none, returned := some m }
  | .failed =>
    { w with queue := w.queue.recordSendFailed m, outstanding := none, returned := none }

/-- One operation. The poll lock is held from a pop to its answer, so a second pop waits; a pop whose
expect fails changes nothing. -/
def step (w : World) : Input → World
  | .enqueue m =>
    { w with
      queue := (w.queue.enqueue m).1
      returned := none
      admitted := if w.queue.fits m then w.admitted ++ [m] else w.admitted }
  | .pop now =>
    match w.outstanding with
    | some _ => w
    | none =>
      match w.queue.popNext now with
      | none => w
      | some (q, r) =>
        { w with
          queue := q
          outstanding := r
          returned := none
          selected := w.selected ++ popTrace now (w.queue.weigh (fun _ => 1) + 1) w.queue }
  | .answer a =>
    match w.outstanding with
    | none => w
    | some m => answered w m a
  | .forget s => { w with queue := w.queue.forgetSession s, returned := none }
  | .clear => { w with queue := w.queue.clear, returned := none }

def machine (config : ScheduledQueueConfig) : Machine World Input where
  init w := ∃ q, fromConfig config = .ok q ∧ w = { queue := q }
  step := step

/-- Sessions are forgotten and the queue is cleared only while no message is outstanding. -/
def guard (w : World) : Input → Prop
  | .forget _ | .clear => w.outstanding = none
  | _ => True

variable {config : ScheduledQueueConfig} {w : World}

theorem kept_init (h : (machine config).init w) : Kept w.queue w.outstanding := by
  obtain ⟨q, hq, rfl⟩ := h
  unfold fromConfig at hq
  split_ifs at hq
  cases hq
  exact ⟨⟨fun _ => RoundRobin.sound_empty, fun p s m hm => by cases hm⟩,
    show 0 < weightedOrder.length by decide, rfl, rfl, fun s => rfl, Nat.zero_le _, Nat.zero_le _,
    fun s => Nat.zero_le _, ⟨fun _ => 0, 0, 0, 0, 0, fun p => rfl, rfl, rfl, rfl, rfl, rfl⟩⟩

theorem step_pop (h : Sound w.queue) (hc : w.queue.cursor < weightedOrder.length) (now : Instant) :
    step w (.pop now) = w ∨ w.outstanding = none ∧
      ∃ q r l, Pops now w.queue q r l ∧ step w (.pop now) =
        { w with queue := q, outstanding := r, returned := none, selected := w.selected ++ l } := by
  cases ho : w.outstanding with
  | some m => exact .inl (by simp only [step, ho])
  | none =>
    obtain ⟨q, r, hp, hps⟩ := popNext_pops h hc now
    exact .inr ⟨rfl, q, r, _, hps, by simp only [step, ho, hp]⟩

theorem step_answer (w : World) (a : Answer) : step w (.answer a) = w ∨
    ∃ m, w.outstanding = some m ∧ step w (.answer a) = answered w m a := by
  cases ho : w.outstanding with
  | none => exact .inl (by simp only [step, ho])
  | some m => exact .inr ⟨m, rfl, by simp only [step, ho]⟩

theorem kept_step (w : World) (a : Input) (h : Kept w.queue w.outstanding) (hg : guard w a) :
    Kept (step w a).queue (step w a).outstanding := by
  cases a with
  | enqueue m => exact h.enqueue m
  | pop now =>
    rcases step_pop h.sound h.cursor now with he | ⟨ho, q, r, l, hp, he⟩
    · rwa [he]
    · rw [he]
      rw [ho] at h
      exact h.pops hp
  | answer a =>
    rcases step_answer w a with he | ⟨m, ho, he⟩
    · rwa [he]
    · rw [he]
      rw [ho] at h
      cases a
      · exact h.recordForwarded
      · exact h.requeue
      · exact h.recordSendFailed
  | forget s =>
    have ho : w.outstanding = none := hg
    rw [ho] at h
    exact ho ▸ h.forget s
  | clear =>
    have ho : w.outstanding = none := hg
    rw [ho] at h
    exact ho ▸ h.clear

/-- **The accounts of the scheduler are exact**: the gauges are the sums over staged and outstanding
messages, no budget is exceeded, every rotation lists exactly the sessions with a message, no expect
fails, and until a counter reaches `u64::MAX` everything admitted is accounted for. -/
theorem scheduler_accounts (h : (machine config).Reach guard w) :
    let q := w.queue
    let c := q.counters
    c.queuedMessages = load q w.outstanding (fun _ => 1) ∧
    c.queuedBytes = load q w.outstanding ScheduledMessage.reservedBytes ∧
    (∀ s, q.bytesOf s = load q w.outstanding (only s ScheduledMessage.reservedBytes)) ∧
    c.queuedMessages ≤ q.maxMessages ∧ c.queuedBytes ≤ q.maxTotalBytes ∧
    (∀ s, q.bytesOf s ≤ q.maxSessionBytes) ∧
    (∀ p, (q.queues p).order.Nodup ∧ ∀ s, s ∈ (q.queues p).order ↔ (q.queues p).line s ≠ []) ∧
    (∀ now, (q.popNext now).isSome) ∧
    ((∀ p, c.admittedByPriority p < u64Max) → c.forwarded < u64Max → c.expiredDropped < u64Max →
      c.sendFailed < u64Max → c.closedDropped < u64Max →
      c.admittedByPriority .low + c.admittedByPriority .normal + c.admittedByPriority .high +
        c.admittedByPriority .critical =
      c.queuedMessages + c.forwarded + c.expiredDropped + c.sendFailed + c.closedDropped) := by
  have hk : Kept w.queue w.outstanding :=
    h.invariant (I := fun w => Kept w.queue w.outstanding) (fun _ => kept_init) kept_step
  refine ⟨hk.messages, hk.bytes, hk.session, hk.maxMessages, hk.maxBytes, hk.maxSession, fun p =>
    ⟨(hk.sound.classes p).nodup, fun s => (hk.sound.classes p).mem_order⟩, fun now => ?_, ?_⟩
  · obtain ⟨q, r, hp, -⟩ := popNext_pops hk.sound hk.cursor now
    rw [hp]
    rfl
  · obtain ⟨a, f, e, s, d, ha, hf, he, hs, hd, hsum⟩ := hk.tallied
    intro hla hlf hle hls hld
    have hexact : ∀ {n c}, c = min n u64Max → c < u64Max → c = n := by
      generalize u64Max = top
      omega
    have hadm := fun p => hexact (ha p) (hla p)
    rw [hadm, hadm, hadm, hadm, hexact hf hlf, hexact he hle, hexact hs hls, hexact hd hld]
    exact hsum

def roomy : ScheduledQueueConfig := ⟨1000, 1000, 10, 1⟩

def message (n : UInt8) : ScheduledMessage := ⟨1, [n], none, none, 0, .normal, none⟩

def stranger : ScheduledMessage := { message 3 with session := 2 }

def urgent : ScheduledMessage := { message 4 with priority := .high }

def roomyStart : World :=
  { queue := ⟨fun _ => .empty _ _, ∅, 1000, 1000, 10, 0, {}⟩ }

theorem init_roomyStart : (machine roomy).init roomyStart := ⟨roomyStart.queue, rfl, rfl⟩

/-- The accounts after a message was taken and another staged. -/
theorem scheduler_accounts_roomy : ∃ w, (machine roomy).Reach guard w ∧
    w.outstanding = some (message 1) ∧
    w.queue.counters.queuedMessages = load w.queue w.outstanding fun _ => 1 := by
  have hr : (machine roomy).Reach guard ((machine roomy).run roomyStart
      [.enqueue (message 1), .pop 0, .enqueue (message 2)]) :=
    Machine.reach_run _ (.start init_roomyStart) ⟨trivial, trivial, trivial, trivial⟩
  exact ⟨_, hr, by decide +kernel, (scheduler_accounts hr).1⟩

/-! ### Order -/

def pick (s : Handle) (p : GamePriority) (l : List ScheduledMessage) : List ScheduledMessage :=
  l.filter fun m => m.session = s ∧ m.priority = p

/-- **Property.** Messages of one session and class are forwarded in the order of their admission,
and a message the transport returned is the next of its session and class. -/
def InOrder (w : World) : Prop :=
  (∀ s p, (pick s p w.forwarded).Sublist (pick s p w.admitted)) ∧
    ∀ m, w.returned = some m → ((w.queue.queues m.priority).line m.session).head? = some m

/-- Nothing else of its session and class is staged when a message is returned. -/
def returnsAlone (w : World) (a : Input) : Prop :=
  a = .answer .wouldBlock → ∀ m, w.outstanding = some m →
    (w.queue.queues m.priority).line m.session = []

theorem line_stage (q : ScheduledQueue) (m : ScheduledMessage) (p : GamePriority) (s : Handle) :
    ((q.stage m).queues p).line s = (q.queues p).line s ++ pick s p [m] := by
  unfold ScheduledQueue.stage pick
  by_cases hp : p = m.priority
  · subst hp
    by_cases hs : s = m.session
    · simp [hs, FairPriorityQueue.push, RoundRobin.line_push]
    · simp [hs, Ne.symm hs, FairPriorityQueue.push, RoundRobin.line_push]
  · simp [hp, Ne.symm hp]

theorem Selected.lines (h : Selected q m q') (p : GamePriority) (s : Handle) :
    (q.queues p).line s = pick s p [m] ++ (q'.queues p).line s := by
  by_cases hps : p = m.priority ∧ s = m.session
  · obtain ⟨rfl, rfl⟩ := hps
    simp [pick, h.line]
  · have hn : ¬(m.session = s ∧ m.priority = p) := fun hn => hps ⟨hn.2.symm, hn.1.symm⟩
    rw [h.others p s hps]
    simp [pick, hn]

theorem Pops.lines (h : Pops now q q' x l) (p : GamePriority) (s : Handle) :
    (pick s p x.toList ++ (q'.queues p).line s).Sublist ((q.queues p).line s) := by
  induction h with
  | nothing => exact List.Sublist.refl _
  | found hs => rw [hs.lines]; exact List.Sublist.refl _
  | dropped hs _ _ ih => rw [hs.lines]; exact ih.trans (List.sublist_append_right _ _)

/-- What was forwarded, is outstanding and is staged follows the order of admission. -/
structure Ordered (w : World) : Prop where
  sound : Sound w.queue
  cursor : w.queue.cursor < weightedOrder.length
  order : ∀ s p, (pick s p w.forwarded ++ (pick s p w.outstanding.toList ++
    (w.queue.queues p).line s)).Sublist (pick s p w.admitted)
  first : ∀ m, w.returned = some m → ((w.queue.queues m.priority).line m.session).head? = some m

theorem sound_pops (h : Sound q) (hp : Pops now q q' x l) :
    Sound q' ∧ q'.cursor < weightedOrder.length := by
  induction hp with
  | nothing hc => exact ⟨h.of_queues rfl, hc⟩
  | found hs => exact ⟨hs.sound, hs.cursor⟩
  | dropped hs _ _ ih => exact ih (hs.sound.of_queues rfl)

theorem pick_append (s : Handle) (p : GamePriority) (l l' : List ScheduledMessage) :
    pick s p (l ++ l') = pick s p l ++ pick s p l' := List.filter_append ..

theorem ordered_step (w : World) (a : Input) (h : Ordered w) (hg : returnsAlone w a) :
    Ordered (step w a) := by
  cases a with
  | enqueue m =>
    unfold step ScheduledQueue.enqueue
    by_cases hf : w.queue.fits m = true
    · simp only [hf, if_true]
      refine ⟨(h.sound.stage m).of_queues rfl, h.cursor, fun s p => ?_, fun _ hv => by cases hv⟩
      have hl := line_stage w.queue m p s
      rw [pick_append]
      show (_ ++ (_ ++ ((w.queue.stage m).queues p).line s)).Sublist _
      rw [hl, ← List.append_assoc, ← List.append_assoc, List.append_assoc (pick s p w.forwarded)]
      exact (h.order s p).append (List.Sublist.refl _)
    · simp only [hf]
      exact ⟨h.sound.of_queues rfl, h.cursor, h.order, fun _ hv => by cases hv⟩
  | pop now =>
    rcases step_pop h.sound h.cursor now with he | ⟨ho, q, r, l, hp, he⟩
    · rwa [he]
    · rw [he]
      obtain ⟨hs, hc⟩ := sound_pops h.sound hp
      refine ⟨hs, hc, fun s p => List.Sublist.trans ?_ (h.order s p), by simp⟩
      rw [ho]
      exact (hp.lines p s).append_left _
  | answer a =>
    rcases step_answer w a with he | ⟨m, ho, he⟩
    · rwa [he]
    · rw [he]
      have hord : ∀ s p, (pick s p w.forwarded ++ (pick s p [m] ++
          (w.queue.queues p).line s)).Sublist (pick s p w.admitted) := by
        have hord := h.order
        rwa [ho] at hord
      cases a with
      | accepted =>
        refine ⟨h.sound.of_queues rfl, h.cursor, fun s p => ?_, fun _ hv => by cases hv⟩
        simp only [answered, pick_append, List.append_assoc]
        exact hord s p
      | wouldBlock =>
        have halone := hg rfl m ho
        have hline : ∀ p s, ((answered w m .wouldBlock).queue.queues p).line s =
            (w.queue.queues p).line s ++ pick s p [m] := line_stage w.queue m
        refine ⟨(h.sound.stage m).of_queues rfl, h.cursor, fun s p => ?_, fun v hv => ?_⟩
        · refine List.Sublist.trans ?_ (hord s p)
          rw [hline]
          show (pick s p w.forwarded ++ _).Sublist _
          by_cases hps : m.session = s ∧ m.priority = p
          · obtain ⟨rfl, rfl⟩ := hps
            simp [halone, answered]
            simp [pick]
          · simp [pick, hps, answered]
        · cases hv
          rw [hline, halone]
          simp [pick]
      | failed =>
        refine ⟨h.sound.of_queues rfl, h.cursor, fun s p => ?_, fun _ hv => by cases hv⟩
        exact List.Sublist.trans ((List.sublist_append_right _ _).append_left _) (hord s p)
  | forget j =>
    refine ⟨h.sound.forget j, h.cursor, fun s p => ?_, fun _ hv => by cases hv⟩
    refine List.Sublist.trans (((?_ : List.Sublist _ _).append_left _).append_left _) (h.order s p)
    show (((w.queue.queues p).remove j).line s).Sublist _
    rw [RoundRobin.line_remove]
    split_ifs
    · exact List.nil_sublist _
    · exact List.Sublist.refl _
  | clear =>
    refine ⟨⟨fun _ => RoundRobin.sound_empty, fun p s m hm => by cases hm⟩, h.cursor, fun s p => ?_,
      fun _ hv => by cases hv⟩
    exact List.Sublist.trans (((List.nil_sublist _).append_left _).append_left _) (h.order s p)

theorem ordered_init (h : (machine config).init w) : Ordered w := by
  have hk := kept_init h
  obtain ⟨q, hq, rfl⟩ := h
  refine ⟨hk.sound, hk.cursor, fun s p => ?_, nofun⟩
  unfold fromConfig at hq
  split_ifs at hq
  cases hq
  exact List.Sublist.refl _

/-- **Order is kept when every returned message comes back alone.** -/
theorem inOrder_of_returnsAlone (h : (machine config).Reach returnsAlone w) : InOrder w := by
  have ho : Ordered w := h.invariant (fun _ => ordered_init) ordered_step
  exact ⟨fun s p => (List.sublist_append_left _ _).trans (ho.order s p), ho.first⟩

/-- A second message is staged while the first is outstanding; the first is returned behind it. -/
theorem returned_behind : ∃ w, (machine roomy).Reach guard w ∧
    w.admitted = [message 1, message 2] ∧ w.forwarded = [message 2, message 1] ∧ ¬InOrder w := by
  let inputs : List Input := [.enqueue (message 1), .pop 0, .enqueue (message 2), .answer .wouldBlock,
    .pop 0, .answer .accepted, .pop 0, .answer .accepted]
  have hf : ((machine roomy).run roomyStart inputs).forwarded = [message 2, message 1] := by
    decide +kernel
  have ha : ((machine roomy).run roomyStart inputs).admitted = [message 1, message 2] := by
    decide +kernel
  refine ⟨_, Machine.reach_run inputs (.start init_roomyStart) ?_, ha, hf, fun h => ?_⟩
  · exact ⟨trivial, trivial, trivial, trivial, trivial, trivial, trivial, trivial, trivial⟩
  · have hs := h.1 1 .normal
    rw [hf, ha] at hs
    exact absurd hs (by decide)

/-- Messages of another session and of another class are staged while the first message is
outstanding; the first is returned, and a second one of its session and class follows it. -/
theorem inOrder_of_returnsAlone_roomy : ∃ w, (machine roomy).Reach returnsAlone w ∧
    w.admitted = [message 1, stranger, urgent, message 2] ∧
    w.forwarded = [stranger, urgent, message 1, message 2] ∧ InOrder w := by
  let inputs : List Input := [.enqueue (message 1), .pop 0, .enqueue stranger, .enqueue urgent,
    .answer .wouldBlock, .enqueue (message 2), .pop 0, .answer .accepted, .pop 0, .answer .accepted,
    .pop 0, .answer .accepted, .pop 0, .answer .accepted]
  have hr : (machine roomy).Reach returnsAlone ((machine roomy).run roomyStart inputs) := by
    refine Machine.reach_run inputs (.start init_roomyStart) ⟨nofun, nofun, nofun, nofun,
      fun _ m hm => ?_, nofun, nofun, nofun, nofun, nofun, nofun, nofun, nofun, nofun, trivial⟩
    obtain rfl : m = message 1 := by
      have : ((machine roomy).run roomyStart (inputs.take 4)).outstanding = some (message 1) := by
        decide +kernel
      exact Option.some.inj (hm.symm.trans this)
    decide +kernel
  exact ⟨_, hr, by decide +kernel, by decide +kernel, inOrder_of_returnsAlone hr⟩

end Rnet.Game.SchedulerRuns
