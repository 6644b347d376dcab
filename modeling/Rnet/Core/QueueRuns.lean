import Rnet.Core.Queue
import Rnet.Lib.FiniteMap
import Rnet.Lib.GuardedRun

/-! # Threads at the event queue

Any number of threads call the event queue. A step is one critical section: a `try_push`, a
`push_priority`, a `push_timeout` or `poll_with_byte_limit` up to its wait, or what such a call does
once it wakes up and holds the lock again. Wakes are free: a thread may wake at any time, whether it
was notified, timed out or woke for no reason.

`accepted`, `entries`, `returned`, `evicted` and `polls` are history that no call reads: every
accepted event with its place in the order of acceptance, and where it is now. -/

namespace Rnet.Core.QueueRuns

open Lib.GuardedRun Lib.GuardedRun.Machine
open Lib.FiniteMap (Table)
open Lib.WeightedQueue Queue Queue.EventQueue

abbrev Thread := ℕ

/-- A poll: the queue it found, its limits and what it returned. -/
structure Poll where
  queue : List Event
  capacity : ℕ
  byteLimit : ℕ
  events : List Event
  deriving DecidableEq

/-- The queue, the threads that wait at it, and its history. -/
structure World where
  queue : EventQueue
  pushing : Table Thread (Event × Instant)
  polling : Table Thread (ℕ × ℕ)
  accepted : List Event
  entries : List (ℕ × Event)
  returned : List (ℕ × Event)
  evicted : List (ℕ × Event)
  polls : List Poll

namespace World

variable (w : World) (thread : Thread)

def start (q : EventQueue) : World := ⟨q, ∅, ∅, [], [], [], [], []⟩

def note (q : EventQueue) (e : Event) : World :=
  { w with
    queue := q
    accepted := w.accepted ++ [e]
    entries := w.entries ++ [(w.accepted.length, e)] }

def noteEvicted (q : EventQueue) (m : ℕ) : World :=
  { w with
    queue := q
    entries := dropFirst (fun entry => isEvictable entry.2) m w.entries
    evicted := w.evicted ++ (w.entries.filter fun entry => isEvictable entry.2).take m }

def tryPush (e : Event) : World :=
  match w.queue.tryPush e with
  | (q, .ok ()) => w.note q e
  | (q, .error _) => { w with queue := q }

def pushPriority (e : Event) : World :=
  match w.queue.pushPriority (w.queue.queue.length + 1) e with
  | none => w
  | some (q, .error _) => w.noteEvicted q (w.queue.queue.length - q.queue.length)
  | some (q, .ok _) =>
    (w.noteEvicted q (w.queue.queue.length + 1 - q.queue.length)).note q (w.queue.strip e)

/-- The loop of `push_timeout` up to its next wait or its end. -/
def pushLoop (e : Event) (deadline now : Instant) : World :=
  if w.queue.isFull (size e) then
    if deadline ≤ now then { w with pushing := w.pushing.erase thread }
    else { w with pushing := w.pushing.insert thread (e, deadline) }
  else { w.note (w.queue.append e) e with pushing := w.pushing.erase thread }

/-- `push_timeout`; `deadline` is `none` where the clock cannot represent it. -/
def pushTimeout (e : Event) (now : Instant) (deadline : Option Instant) : World :=
  match deadline with
  | none => w
  | some deadline => w.pushLoop thread e deadline now

/-- A thread in `push_timeout` wakes. -/
def pushWake (now : Instant) (timedOut : Bool) : World :=
  match w.pushing.lookup thread with
  | none => w
  | some (e, deadline) =>
    if timedOut && w.queue.isFull (size e) then { w with pushing := w.pushing.erase thread }
    else w.pushLoop thread e deadline now

def take (capacity byteLimit : ℕ) : World :=
  let taken := w.queue.take capacity byteLimit
  { w with
    queue := taken.1
    entries := w.entries.drop taken.2.length
    returned := w.returned ++ w.entries.take taken.2.length
    polls := w.polls ++ [⟨w.queue.queue, capacity, byteLimit, taken.2⟩] }

/-- `poll_with_byte_limit`; `wait` is whether its timeout is not zero. -/
def poll (capacity byteLimit : ℕ) (wait : Bool) : World :=
  if capacity = 0 then
    { w with polls := w.polls ++ [⟨w.queue.queue, capacity, byteLimit, []⟩] }
  else if w.queue.queue.isEmpty && wait then
    { w with polling := w.polling.insert thread (capacity, byteLimit) }
  else w.take capacity byteLimit

def pollWake : World :=
  match w.polling.lookup thread with
  | none => w
  | some (capacity, byteLimit) =>
    { w with polling := w.polling.erase thread }.take capacity byteLimit

end World

/-- What threads do with the queue. -/
inductive Input
  | tryPush (e : Event)
  | pushPriority (e : Event)
  | pushTimeout (thread : Thread) (e : Event) (now : Instant) (deadline : Option Instant)
  | pushWake (thread : Thread) (now : Instant) (timedOut : Bool)
  | poll (thread : Thread) (capacity byteLimit : ℕ) (wait : Bool)
  | pollWake (thread : Thread)

def step (w : World) : Input → World
  | .tryPush e => w.tryPush e
  | .pushPriority e => w.pushPriority e
  | .pushTimeout thread e now deadline => w.pushTimeout thread e now deadline
  | .pushWake thread now timedOut => w.pushWake thread now timedOut
  | .poll thread capacity byteLimit wait => w.poll thread capacity byteLimit wait
  | .pollWake thread => w.pollWake thread

def machine : Machine World Input where
  init w := ∃ capacity byteCapacity q, byteCapacity ≤ u64Max ∧
    newWithLimits capacity byteCapacity = .ok q ∧ w = .start q
  step := step

/-! ### Where accepted events are -/

def numbered (l : List Event) : List (ℕ × Event) := l.zipIdx.map fun entry => (entry.2, entry.1)

theorem numbered_append (l : List Event) (e : Event) :
    numbered (l ++ [e]) = numbered l ++ [(l.length, e)] := by
  simp [numbered, List.zipIdx_append]

theorem fst_lt_of_mem_numbered (h : entry ∈ numbered l) : entry.1 < l.length := by
  obtain ⟨⟨e, i⟩, hm, rfl⟩ := List.mem_map.mp h
  have hl := (List.mem_zipIdx hm).2.1
  simpa using hl

/-- The queue is valid, and every accepted event is in one place: returned, queued or evicted. -/
structure Consistent (w : World) : Prop where
  valid : w.queue.Valid
  queued : w.queue.queue = w.entries.map Prod.snd
  ordered : (w.returned ++ w.entries).Pairwise fun a b => a.1 < b.1
  placed : (w.returned ++ w.entries ++ w.evicted).Perm (numbered w.accepted)
  evictable : ∀ entry ∈ w.evicted, isEvictable entry.2 = true
  polled : w.polls.flatMap Poll.events = w.returned.map Prod.snd
  longest : ∀ p ∈ w.polls, LongestFit size p.capacity p.byteLimit p.queue p.events

variable {w : World}

theorem Consistent.threads (h : Consistent w) (hq : w'.queue = w.queue)
    (ha : w'.accepted = w.accepted) (he : w'.entries = w.entries) (hr : w'.returned = w.returned)
    (hev : w'.evicted = w.evicted) (hp : w'.polls = w.polls) : Consistent w' := by
  obtain ⟨queue, pushing, polling, accepted, entries, returned, evicted, polls⟩ := w'
  cases hq; cases ha; cases he; cases hr; cases hev; cases hp
  exact ⟨h.valid, h.queued, h.ordered, h.placed, h.evictable, h.polled, h.longest⟩

variable {q : EventQueue}

theorem Consistent.note (h : Consistent w) (hv : q.Valid) (hq : q.queue = w.queue.queue ++ [e]) :
    Consistent (w.note q e) where
  valid := hv
  queued := by
    show q.queue = (w.entries ++ [(w.accepted.length, e)]).map Prod.snd
    rw [hq, h.queued, List.map_append]
    rfl
  ordered := by
    show (w.returned ++ (w.entries ++ [(w.accepted.length, e)])).Pairwise _
    rw [← List.append_assoc, List.pairwise_append]
    refine ⟨h.ordered, List.pairwise_singleton .., fun a ha b hb => ?_⟩
    rw [List.mem_singleton.mp hb]
    exact fst_lt_of_mem_numbered (h.placed.subset (List.mem_append_left _ ha))
  placed := by
    show (w.returned ++ (w.entries ++ [(w.accepted.length, e)]) ++ w.evicted).Perm
      (numbered (w.accepted ++ [e]))
    rw [numbered_append, ← List.append_assoc]
    refine List.Perm.trans ?_ (h.placed.append_right _)
    rw [List.append_assoc, List.append_assoc (_ ++ _)]
    exact List.perm_append_comm.append_left _
  evictable := h.evictable
  polled := h.polled
  longest := h.longest

theorem Consistent.noteEvicted (h : Consistent w) (hv : q.Valid)
    (hq : q.queue = dropFirst isEvictable m w.queue.queue) : Consistent (w.noteEvicted q m) where
  valid := hv
  queued := by
    show q.queue = (dropFirst (fun entry => isEvictable entry.2) m w.entries).map Prod.snd
    rw [hq, h.queued, map_dropFirst isEvictable Prod.snd]
  ordered := h.ordered.sublist ((List.Sublist.refl _).append (dropFirst_sublist ..))
  placed := by
    show (w.returned ++ dropFirst (fun entry => isEvictable entry.2) m w.entries ++
      (w.evicted ++ (w.entries.filter fun entry => isEvictable entry.2).take m)).Perm _
    have hs := perm_dropFirst (fun entry : ℕ × Event => isEvictable entry.2) m w.entries
    refine List.Perm.trans ?_ h.placed
    rw [List.append_assoc, List.append_assoc]
    refine List.Perm.append_left _ ?_
    refine (List.perm_append_comm.append_left _).trans ?_
    rw [← List.append_assoc]
    exact hs.append_right _
  evictable := by
    intro entry he
    rcases List.mem_append.mp he with ho | hn
    · exact h.evictable entry ho
    · exact (List.mem_filter.mp (List.mem_of_mem_take hn)).2
  polled := h.polled
  longest := h.longest

theorem consistent_tryPush (h : Consistent w) (e : Event) : Consistent (w.tryPush e) := by
  unfold World.tryPush EventQueue.tryPush
  split_ifs with hf
  · exact h.threads rfl rfl rfl rfl rfl rfl
  · exact h.note (h.valid.append (by simpa using hf)) rfl

theorem length_after (h : Removed q 0 m) :
    (q.after m).queue.length + m = (q.after 0).queue.length := by
  induction m with
  | zero => rfl
  | succ m ih =>
    have hl := h m (Nat.zero_le m) (Nat.lt_succ_self m)
    have hb := ih fun j hj hjm => h j hj (Nat.lt_succ_of_lt hjm)
    omega

theorem consistent_pushPriority (h : Consistent w) (e : Event) : Consistent (w.pushPriority e) := by
  have hz := h.valid.after_zero
  have hp := published_pushPriority h.valid e (Nat.lt_succ_self w.queue.queue.length)
  unfold World.pushPriority
  generalize w.queue.pushPriority (w.queue.queue.length + 1) e = out at hp
  cases hp with
  | tooLarge _ err =>
    refine h.noteEvicted h.valid ?_
    rw [Nat.sub_self, dropFirst_zero]
  | @refused m hr _ _ err =>
    have hl := length_after hr
    rw [hz] at hl
    refine h.noteEvicted (h.valid.after m) ?_
    rw [show w.queue.queue.length - (w.queue.after m).queue.length = m by omega]
    rfl
  | @accepted m hr _ hro =>
    have hl := length_after hr
    rw [hz] at hl
    have hc : w.queue.queue.length + 1 -
        ((w.queue.after m).append (w.queue.strip e)).queue.length = m := by
      show _ - ((w.queue.after m).queue ++ [w.queue.strip e]).length = m
      rw [List.length_append, List.length_singleton]
      omega
    dsimp only
    rw [hc]
    have he : Consistent (w.noteEvicted (w.queue.after m) m) :=
      h.noteEvicted (h.valid.after m) rfl
    exact (he.note ((h.valid.after m).append hro) rfl).threads rfl rfl rfl rfl rfl rfl

theorem consistent_pushLoop (h : Consistent w) (thread : Thread) (e : Event)
    (deadline now : Instant) : Consistent (w.pushLoop thread e deadline now) := by
  unfold World.pushLoop
  split_ifs with hf
  · exact h.threads rfl rfl rfl rfl rfl rfl
  · exact h.threads rfl rfl rfl rfl rfl rfl
  have hn : Consistent (w.note (w.queue.append e) e) :=
    h.note (h.valid.append (by simpa using hf)) rfl
  exact hn.threads rfl rfl rfl rfl rfl rfl

theorem Valid.take (h : q.Valid) (capacity byteLimit : ℕ) :
    (q.take capacity byteLimit).1.Valid := by
  unfold EventQueue.take
  generalize fitting Queue.size byteLimit (q.queue.take capacity) = n
  have hs : weight Queue.size (q.queue.take n) + weight Queue.size (q.queue.drop n) =
      q.queuedBytes := by
    rw [← weight_append, List.take_append_drop, h.bytes]
  have hb : (if n = 0 then q.queuedBytes
      else q.queuedBytes - ((q.queue.take n).map Queue.size).sum) =
        weight Queue.size (q.queue.drop n) := by
    split_ifs with hn
    · rw [hn, List.drop_zero, h.bytes]
    · rw [← hs]
      exact Nat.add_sub_cancel_left ..
  have hl := h.length
  have hwi := h.within
  refine ⟨h.positive, h.representable, hb, ?_, ?_⟩
  · show (if n = 0 then _ else _) ≤ _
    rw [hb]
    show _ ≤ q.byteCapacity
    omega
  · show (q.queue.drop n).length ≤ q.capacity
    rw [List.length_drop]
    omega

theorem consistent_take (h : Consistent w) (capacity byteLimit : ℕ) :
    Consistent (w.take capacity byteLimit) := by
  have hf := longestFit_take Queue.size capacity byteLimit w.queue.queue
  have hv := Valid.take h.valid capacity byteLimit
  have hl := (fitting_le_length Queue.size byteLimit (w.queue.queue.take capacity)).trans
    (List.length_take_le' ..)
  unfold World.take
  unfold EventQueue.take at hv ⊢
  dsimp only at hv ⊢
  generalize fitting Queue.size byteLimit (w.queue.queue.take capacity) = n at hf hv hl ⊢
  have hn : (w.queue.queue.take n).length = n := List.length_take_of_le hl
  rw [hn]
  have he : w.returned ++ w.entries.take n ++ w.entries.drop n = w.returned ++ w.entries := by
    rw [List.append_assoc, List.take_append_drop]
  refine ⟨hv, ?_, ?_, ?_, h.evictable, ?_, ?_⟩
  · show w.queue.queue.drop n = (w.entries.drop n).map Prod.snd
    rw [h.queued, List.map_drop]
  · show (w.returned ++ w.entries.take n ++ w.entries.drop n).Pairwise _
    rw [he]
    exact h.ordered
  · show (w.returned ++ w.entries.take n ++ w.entries.drop n ++ w.evicted).Perm _
    rw [he]
    exact h.placed
  · show (w.polls ++ [_]).flatMap Poll.events = (w.returned ++ w.entries.take n).map Prod.snd
    rw [List.flatMap_append, List.map_append, h.polled, List.map_take, ← h.queued]
    simp
  · intro p hp
    rcases List.mem_append.mp hp with ho | hne
    · exact h.longest p ho
    · rw [List.mem_singleton.mp hne]
      exact hf

theorem consistent_poll (h : Consistent w) (thread : Thread) (capacity byteLimit : ℕ)
    (wait : Bool) : Consistent (w.poll thread capacity byteLimit wait) := by
  unfold World.poll
  split_ifs with hz
  · refine ⟨h.valid, h.queued, h.ordered, h.placed, h.evictable, ?_, fun p hp => ?_⟩
    · rw [← h.polled]
      simp
    rcases List.mem_append.mp hp with ho | hn
    · exact h.longest p ho
    rw [List.mem_singleton.mp hn]
    subst hz
    refine ⟨?_, Nat.zero_le _, Nat.zero_le _, fun r _ hr _ => hr⟩
    exact List.nil_prefix
  · exact h.threads rfl rfl rfl rfl rfl rfl
  · exact consistent_take h capacity byteLimit

/-- **Every critical section keeps the queue consistent.** -/
theorem consistent_step (h : Consistent w) (input : Input) : Consistent (step w input) := by
  cases input with
  | tryPush e => exact consistent_tryPush h e
  | pushPriority e => exact consistent_pushPriority h e
  | pushTimeout thread e now deadline =>
    cases deadline with
    | none => exact h
    | some deadline => exact consistent_pushLoop h thread e deadline now
  | pushWake thread now timedOut =>
    show Consistent (w.pushWake thread now timedOut)
    unfold World.pushWake
    split
    · exact h
    split_ifs
    · exact h.threads rfl rfl rfl rfl rfl rfl
    · exact consistent_pushLoop h ..
  | poll thread capacity byteLimit wait => exact consistent_poll h thread capacity byteLimit wait
  | pollWake thread =>
    show Consistent (w.pollWake thread)
    unfold World.pollWake
    split
    · exact h
    · refine consistent_take ?_ _ _
      exact h.threads rfl rfl rfl rfl rfl rfl

theorem consistent_start (h : machine.init w) : Consistent w := by
  obtain ⟨capacity, byteCapacity, q, hr, hn, rfl⟩ := h
  obtain ⟨hv, he⟩ := valid_newWithLimits hr hn
  refine ⟨hv, he, .nil, .nil, fun _ h => ?_, rfl, fun _ h => ?_⟩
  · cases h
  · cases h

theorem consistent_reach (h : machine.Reach (fun _ _ => True) w) : Consistent w :=
  h.invariant (fun _ => consistent_start) fun _ input hw _ => consistent_step hw input

/-- A push waits for room, a close evicts the first message, a poll takes one event, and the waiting
push gets in. -/
def busy : World :=
  machine.run (.start ⟨2, 8, 0, []⟩)
    [.tryPush ⟨.message, 1, 2, 0, .ok, [1, 2], false⟩,
      .tryPush ⟨.message, 1, 2, 0, .ok, [3], false⟩,
      .pushTimeout 7 ⟨.message, 1, 2, 0, .ok, [4], false⟩ 0 (some 100),
      .pushPriority ⟨.sessionClosed, 1, 2, 0, .timeout, [5], false⟩,
      .poll 8 1 64 true, .pushWake 7 50 false]

end Rnet.Core.QueueRuns
