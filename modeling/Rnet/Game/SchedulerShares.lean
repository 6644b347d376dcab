import Rnet.Game.SchedulerRuns

/-! # The shares of the priority classes

While no class is empty, every selection serves the class under the cursor and moves it by one slot.
What senders stage, what expires and what the transport answers in between does not move the cursor,
and neither does a pop that finds nothing. So any fifteen selections in a row serve the classes in
the proportions of the weighted order. -/

namespace Rnet.Game.SchedulerShares

open Rnet.Core Lib.GuardedRun Lib.KeyedQueues Scheduler ScheduledQueue SchedulerRuns

def Busy (q : ScheduledQueue) : Prop := ∀ p, (q.queues p).order ≠ []

/-- The cursor in front of the selections, when it is at `final` behind them. -/
def before (final : ℕ) : List (ScheduledQueue × ScheduledMessage) → ℕ
  | [] => final
  | e :: _ => e.1.cursor

/-- Selections that take the turns of the weighted order one after the other. -/
def Walks (final : ℕ) : List (ScheduledQueue × ScheduledMessage) → Prop
  | [] => True
  | e :: l => e.1.cursor < weightedOrder.length ∧ (Busy e.1 → e.2.priority = turnAt e.1.cursor ∧
      before final l = (e.1.cursor + 1) % weightedOrder.length) ∧ Walks final l

variable {final : ℕ} {l l' : List (ScheduledQueue × ScheduledMessage)}

theorem Walks.append (h : Walks (before final l') l) (h' : Walks final l') :
    Walks final (l ++ l') ∧ before final (l ++ l') = before (before final l') l := by
  induction l with
  | nil => exact ⟨h', rfl⟩
  | cons e l ih =>
    obtain ⟨hc, he, h⟩ := h
    obtain ⟨ih, hb⟩ := ih h
    exact ⟨⟨hc, fun hbu => ⟨(he hbu).1, hb.trans (he hbu).2⟩, ih⟩, rfl⟩

theorem Walks.of_append (h : Walks final (l ++ l')) :
    Walks (before final l') l ∧ Walks final l' := by
  induction l with
  | nil => exact ⟨trivial, h⟩
  | cons e l ih =>
    obtain ⟨hc, he, h⟩ := h
    obtain ⟨hl, hl'⟩ := ih h
    refine ⟨⟨hc, fun hbu => ⟨(he hbu).1, ?_⟩, hl⟩, hl'⟩
    rw [← (he hbu).2]
    cases l <;> rfl

variable {q q' : ScheduledQueue} {m : ScheduledMessage}

/-- A selection among busy classes takes the turn of the cursor. -/
theorem slot_of_busy (h : Selected q m q') (hb : Busy q) :
    m.priority = turnAt q.cursor ∧ q'.cursor = (q.cursor + 1) % weightedOrder.length := by
  obtain ⟨d, -, hskip, hm, hc⟩ := h.slot
  cases d with
  | zero => exact ⟨hm, hc⟩
  | succ d => exact absurd (hskip 0 (Nat.succ_pos d)) (hb _)

/-- A selection that finds nothing goes once around. -/
theorem cursor_of_select_none (h : Sound q) (hc : q.cursor < weightedOrder.length)
    (hs : select weightedOrder.length q = some (q', none)) : q'.cursor = q.cursor := by
  rcases select_cases h hc weightedOrder.length with ⟨d, -, m, class', -, -, -, hsel⟩ | ⟨-, hsel⟩
  · rw [hs] at hsel
    cases hsel
  · rw [hs] at hsel
    cases hsel
    exact (Nat.add_mod_right _ _).trans (Nat.mod_eq_of_lt hc)

theorem walks_popLoop (fuel : ℕ) (h : Sound q) (hc : q.cursor < weightedOrder.length)
    (hp : popLoop now fuel q = some (q', r)) :
    Walks q'.cursor (popTrace now fuel q) ∧
      before q'.cursor (popTrace now fuel q) = q.cursor := by
  induction fuel generalizing q with
  | zero => cases hp
  | succ fuel ih =>
    rcases select_spec h hc with ⟨q₁, m, hsel, hs⟩ | ⟨⟨c, -, hsel⟩, -⟩
    · by_cases he : expired now m = true
      · simp only [popLoop, hsel, he, if_true] at hp
        obtain ⟨hw, hb⟩ := @ih (q₁.dropExpired m) (hs.sound.of_queues rfl) hs.cursor hp
        simp only [popTrace, hsel, he, if_true]
        exact ⟨⟨hc, fun hbu => ⟨(slot_of_busy hs hbu).1, hb.trans (slot_of_busy hs hbu).2⟩, hw⟩, rfl⟩
      · simp only [popLoop, hsel, he] at hp
        cases hp
        simp only [popTrace, hsel, he]
        exact ⟨⟨hc, slot_of_busy hs, trivial⟩, rfl⟩
    · have hn := cursor_of_select_none h hc hsel
      simp only [popLoop, hsel] at hp
      cases hp
      simp only [popTrace, hsel]
      exact ⟨trivial, hn⟩

/-- **Every operation keeps the selections in turn.** -/
theorem walks_step (a : Input) (h : Kept w.queue w.outstanding)
    (hw : Walks w.queue.cursor w.selected) : Walks (step w a).queue.cursor (step w a).selected := by
  cases a with
  | enqueue m =>
    have hc : (w.queue.enqueue m).1.cursor = w.queue.cursor := by
      unfold ScheduledQueue.enqueue
      split_ifs <;> rfl
    exact hc.symm ▸ hw
  | pop now =>
    unfold step
    dsimp only
    split
    · exact hw
    split
    · exact hw
    rename_i q r hp
    obtain ⟨hl, hb⟩ := walks_popLoop _ h.sound h.cursor hp
    rw [← hb] at hw
    exact (hw.append hl).1
  | answer a =>
    unfold step
    dsimp only
    split
    · exact hw
    · cases a <;> exact hw
  | forget s | clear => exact hw

/-- The classes of selections in turn. -/
theorem classes_of_walks (h : Walks final l) (hb : ∀ e ∈ l, Busy e.1) :
    l.map (fun e => e.2.priority) = (List.range l.length).map fun i => turnAt (before final l + i) := by
  induction l with
  | nil => rfl
  | cons e l ih =>
    obtain ⟨hc, he, h⟩ := h
    obtain ⟨hm, hn⟩ := he (hb e List.mem_cons_self)
    rw [List.map_cons, ih h fun e' he' => hb e' (List.mem_cons_of_mem _ he'), hn, List.length_cons,
      List.range_succ_eq_map, List.map_cons, List.map_map, hm]
    refine congrArg (_ :: ·) (List.map_congr_left fun i _ => ?_)
    simp only [turnAt, before, Function.comp_apply, Nat.mod_add_mod, Nat.add_assoc, Nat.add_comm 1]

def weight : GamePriority → ℕ
  | .critical => 8
  | .high => 4
  | .normal => 2
  | .low => 1

theorem count_turnAt (i : ℕ) (p : GamePriority) :
    ((List.range 15).map fun j => turnAt (i + j)).count p = weight p := by
  have h : ∀ i < weightedOrder.length, ∀ p ∈ [GamePriority.critical, .high, .normal, .low],
      ((List.range 15).map fun j => turnAt (i + j)).count p = weight p := by decide
  have hi := h (i % weightedOrder.length) (Nat.mod_lt _ (by decide)) p (by cases p <;> decide)
  simp only [turnAt, Nat.mod_add_mod] at hi
  exact hi

instance (w : World) : (a : Input) → Decidable (guard w a)
  | .forget _ | .clear => inferInstanceAs (Decidable (w.outstanding = none))
  | .enqueue _ | .pop _ | .answer _ => .isTrue trivial

variable {config : ScheduledQueueConfig} {w : World}

/-- **The classes get their shares.** In every run, of any fifteen selections in a row during which no
class is empty, eight are critical, four high, two normal and one low. -/
theorem classes_share (h : (machine config).Reach guard w)
    {l l' window : List (ScheduledQueue × ScheduledMessage)}
    (hs : w.selected = l ++ (window ++ l')) (hn : window.length = 15)
    (hb : ∀ e ∈ window, Busy e.1) (p : GamePriority) :
    (window.map fun e => e.2.priority).count p = weight p := by
  have hw : Kept w.queue w.outstanding ∧ Walks w.queue.cursor w.selected := by
    refine h.invariant (I := fun w => Kept w.queue w.outstanding ∧ Walks w.queue.cursor w.selected)
      (fun w hi => ⟨kept_init hi, ?_⟩) fun w a hk hg => ⟨kept_step w a hk.1 hg, walks_step a hk.1 hk.2⟩
    obtain ⟨q, -, rfl⟩ := hi
    exact trivial
  have ht := hw.2
  rw [hs] at ht
  rw [classes_of_walks ht.of_append.2.of_append.1 hb, hn]
  exact count_turnAt _ p

/-- Just enough is staged for fifteen selections among busy classes, and the transport takes each. -/
def crowded : List Input :=
  let stage (n : ℕ) (p : GamePriority) : List Input :=
    List.replicate n (.enqueue ⟨1, [0], none, none, 0, p, none⟩)
  stage 9 .critical ++ stage 5 .high ++ stage 3 .normal ++ stage 1 .low ++
    (List.replicate 15 [Input.pop 0, .answer .accepted]).flatten

def crowdedStart : World := { queue := ⟨fun _ => .empty _ _, ∅, 1000, 1000, 20, 0, {}⟩ }

def crowdedEnd : World := (machine ⟨1000, 1000, 20, 1⟩).run crowdedStart crowded

theorem classes_share_crowded : ∃ w, (machine ⟨1000, 1000, 20, 1⟩).Reach guard w ∧
    (w.selected.map fun e => e.2.priority).count .critical = 8 := by
  have hs : ∀ w, (machine ⟨1000, 1000, 20, 1⟩).Reach guard w → w.selected.length = 15 →
      (∀ e ∈ w.selected, Busy e.1) → (w.selected.map fun e => e.2.priority).count .critical = 8 :=
    fun w h hn hb => @classes_share _ w h [] [] w.selected (by simp) hn hb .critical
  have hr : (machine ⟨1000, 1000, 20, 1⟩).Reach guard crowdedEnd :=
    Machine.reach_run crowded (.start ⟨crowdedStart.queue, rfl, rfl⟩) (by decide +kernel)
  have hb : ∀ e ∈ crowdedEnd.selected, ∀ p ∈ [GamePriority.critical, .high, .normal, .low],
      (e.1.queues p).order ≠ [] := by decide +kernel
  exact ⟨_, hr, hs _ hr (by decide +kernel) fun e he p => hb e he p (by cases p <;> decide)⟩

end Rnet.Game.SchedulerShares
