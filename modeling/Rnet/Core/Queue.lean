import Rnet.Core.Basic
import Rnet.Lib.WeightedQueue
import Mathlib.Order.Basic

/-! # The event queue

A bounded queue of events with a limit on their number and one on their payload bytes. Each function
is one critical section of the source: the queue and the byte counter have locks of their own, but
whoever changes either holds the lock of the queue. `push_priority` makes room by evicting old data
events, one at a time; `pushPriority_spec` says which ones, and when it fails. -/

namespace Rnet.Core.Queue

open Lib.WeightedQueue

def size (e : Event) : ℕ := e.data.length

def checkedAdd (a b : ℕ) : Option ℕ := if a + b ≤ u64Max then some (a + b) else none

/-- The event queue with its limits and the bytes it counts. -/
structure EventQueue where
  capacity : ℕ
  byteCapacity : ℕ
  queuedBytes : ℕ
  queue : List Event
  deriving DecidableEq

namespace EventQueue

/-- An empty queue; both limits have to be positive. -/
def newWithLimits (capacity byteCapacity : ℕ) : Result EventQueue :=
  if capacity = 0 ∨ byteCapacity = 0 then
    .error ⟨.invalidArgument, "event queue count and byte capacities must be positive"⟩
  else .ok ⟨capacity, byteCapacity, 0, []⟩

def lacksBytes (q : EventQueue) (n : ℕ) : Bool :=
  (checkedAdd q.queuedBytes n).all fun total => q.byteCapacity < total

def isFull (q : EventQueue) (n : ℕ) : Bool := q.queue.length = q.capacity || q.lacksBytes n

def append (q : EventQueue) (e : Event) : EventQueue :=
  { q with queuedBytes := q.queuedBytes + size e, queue := q.queue ++ [e] }

/-- Appends an event unless the queue is full. -/
def tryPush (q : EventQueue) (e : Event) : EventQueue × Result Unit :=
  if q.isFull (size e) then (q, .error ⟨.wouldBlock, "event queue is full"⟩)
  else (q.append e, .ok ())

/-! ### Priority publication -/

/-- Events whose payload is a local diagnostic. -/
def isDiagnostic : EventType → Bool
  | .sessionClosed | .joinFailed | .endpointError => true
  | _ => false

def isEvictable (e : Event) : Bool :=
  match e.eventType with
  | .message | .writable | .gameControl => true
  | _ => false

/-- A diagnostic is discarded where it does not fit. -/
def strip (q : EventQueue) (e : Event) : Event :=
  if isDiagnostic e.eventType && q.lacksBytes (size e) then { e with data := [] } else e

def evict (q : EventQueue) : Option EventQueue :=
  (q.queue.find? isEvictable).map fun removed =>
    { q with
      queue := q.queue.eraseP isEvictable
      queuedBytes := q.queuedBytes - size removed }

/-- The eviction loop for an event of `n` bytes; `none` means that the loop did not end within
`fuel` rounds. -/
def makeRoom (n : ℕ) : ℕ → EventQueue → Bool → Option (EventQueue × Result Bool)
  | 0, _, _ => none
  | fuel + 1, q, evicted =>
    if q.isFull n then
      match q.evict with
      | none => some (q, .error ⟨.wouldBlock, "event queue contains only lifecycle notifications"⟩)
      | some q => makeRoom n fuel q true
    else some (q, .ok evicted)

/-- Evicts until a lifecycle event has room. -/
def pushPriority (fuel : ℕ) (q : EventQueue) (e : Event) : Option (EventQueue × Result Bool) :=
  let e := q.strip e
  if q.byteCapacity < size e then
    some (q, .error ⟨.wouldBlock, "lifecycle event exceeds the event byte budget"⟩)
  else
    (makeRoom (size e) fuel q false).map fun
      | (q, .error err) => (q, .error err)
      | (q, .ok evicted) => (q.append e, .ok evicted)

/-! ### Polling -/

/-- The part of `poll_with_byte_limit` after its wait. -/
def take (q : EventQueue) (capacity byteLimit : ℕ) : EventQueue × List Event :=
  let n := fitting size byteLimit (q.queue.take capacity)
  let events := q.queue.take n
  ({ q with
      queue := q.queue.drop n
      queuedBytes :=
        if n = 0 then q.queuedBytes else q.queuedBytes - (events.map size).sum }, events)

/-! ### The invariant -/

/-- The counter is the sum of the queued payloads, and both limits hold. -/
structure Valid (q : EventQueue) : Prop where
  positive : 0 < q.capacity
  representable : q.byteCapacity ≤ u64Max
  bytes : q.queuedBytes = weight size q.queue
  within : q.queuedBytes ≤ q.byteCapacity
  length : q.queue.length ≤ q.capacity

def Fits (q : EventQueue) (l : List Event) (e : Event) : Prop :=
  l.length < q.capacity ∧ weight size l + size e ≤ q.byteCapacity

variable {q : EventQueue}

theorem lacksBytes_eq_false (h : q.byteCapacity ≤ u64Max) :
    q.lacksBytes n = false ↔ q.queuedBytes + n ≤ q.byteCapacity := by
  unfold lacksBytes checkedAdd
  split_ifs with hs
  · simp
  simp only [Option.all_none]
  constructor
  · intro h; cases h
  · intro hl; exact absurd (hl.trans h) hs

variable {e : Event}

theorem Valid.isFull_eq_false (h : q.Valid) : q.isFull (size e) = false ↔ q.Fits q.queue e := by
  have hl := h.length
  unfold isFull
  rw [Bool.or_eq_false_iff, lacksBytes_eq_false h.representable, h.bytes, decide_eq_false_iff_not]
  constructor
  · rintro ⟨hc, hb⟩
    exact ⟨by omega, hb⟩
  · rintro ⟨hc, hb⟩
    exact ⟨by omega, hb⟩

theorem Valid.append (h : q.Valid) (hf : q.isFull (size e) = false) : (q.append e).Valid := by
  obtain ⟨hc, hb⟩ := h.isFull_eq_false.mp hf
  refine ⟨h.positive, h.representable, ?_, ?_, ?_⟩
  · show q.queuedBytes + size e = weight size (q.queue ++ [e])
    rw [weight_append, h.bytes]
    rfl
  · show q.queuedBytes + size e ≤ q.byteCapacity
    rw [h.bytes]
    exact hb
  · show (q.queue ++ [e]).length ≤ q.capacity
    rw [List.length_append]
    exact hc

theorem valid_newWithLimits {capacity byteCapacity : ℕ} (hr : byteCapacity ≤ u64Max)
    (h : newWithLimits capacity byteCapacity = .ok q) :
    q.Valid ∧ q.queue = [] := by
  unfold newWithLimits at h
  split_ifs at h with hz
  cases h
  have hp : 0 < capacity := by omega
  exact ⟨⟨hp, hr, rfl, Nat.zero_le _, Nat.zero_le _⟩, rfl⟩

/-! ### What the eviction loop does -/

def after (q : EventQueue) (k : ℕ) : EventQueue :=
  { q with
    queue := dropFirst isEvictable k q.queue
    queuedBytes := weight size (dropFirst isEvictable k q.queue) }

theorem Valid.after_zero (h : q.Valid) : q.after 0 = q := by
  rw [after, dropFirst_zero, ← h.bytes]

theorem weight_dropFirst_le (k : ℕ) (l : List Event) :
    weight size (dropFirst isEvictable k l) ≤ weight size l := by
  induction k with
  | zero => rw [dropFirst_zero]
  | succ k ih =>
    rw [dropFirst_succ]
    cases hf : (dropFirst isEvictable k l).find? isEvictable with
    | none =>
      have hn := List.find?_eq_none.mp hf
      rwa [List.eraseP_of_forall_not fun a ha => by simpa using hn a ha]
    | some removed =>
      have hr := weight_eraseP size isEvictable hf
      omega

theorem Valid.after (h : q.Valid) (k : ℕ) : (q.after k).Valid := by
  have hwe := weight_dropFirst_le k q.queue
  have hl := (dropFirst_sublist isEvictable k q.queue).length_le
  refine ⟨h.positive, h.representable, rfl, ?_, hl.trans h.length⟩
  exact hwe.trans (h.bytes ▸ h.within)

theorem evict_after (q : EventQueue) (k : ℕ) :
    ((q.after k).evict = none ∧ ∀ e ∈ (q.after k).queue, isEvictable e = false) ∨
      (q.after k).evict = some (q.after (k + 1)) ∧
        (q.after (k + 1)).queue.length + 1 = (q.after k).queue.length := by
  cases hf : (q.after k).queue.find? isEvictable with
  | none =>
    refine .inl ⟨by rw [evict, hf]; rfl, fun e he => ?_⟩
    simpa using List.find?_eq_none.mp hf e he
  | some removed =>
    have hq : (q.after (k + 1)).queue = (q.after k).queue.eraseP isEvictable :=
      dropFirst_succ ..
    have hwe := weight_eraseP size isEvictable hf
    refine .inr ⟨?_, ?_⟩
    · have hb : (q.after k).queuedBytes - size removed = (q.after (k + 1)).queuedBytes := by
        have ho : (q.after k).queuedBytes = weight size (q.after k).queue := rfl
        have hn : (q.after (k + 1)).queuedBytes = weight size (q.after (k + 1)).queue := rfl
        rw [hq] at hn
        omega
      rw [evict, hf, Option.map_some, hb, ← hq]
      rfl
    · rw [hq]
      exact length_eraseP isEvictable hf

/-- Each of the rounds `k`, …, `m - 1` removed an event. -/
def Removed (q : EventQueue) (k m : ℕ) : Prop :=
  ∀ j, k ≤ j → j < m → (q.after (j + 1)).queue.length + 1 = (q.after j).queue.length

/-- How the loop ends when `k` events have been evicted so far. -/
inductive Ended (q : EventQueue) (n k : ℕ) (evicted : Bool) :
    ℕ → Option (EventQueue × Result Bool) → Prop
  /-- there is room -/
  | room {m : ℕ} (hk : k ≤ m) (hremoved : Removed q k m)
    (hfull : ∀ j, k ≤ j → j < m → (q.after j).isFull n = true)
    (hroom : (q.after m).isFull n = false) :
    Ended q n k evicted m (some (q.after m, .ok (evicted || decide (k < m))))
  /-- nothing is left to evict -/
  | stuck {m : ℕ} (hk : k ≤ m) (hremoved : Removed q k m)
    (hfull : ∀ j, k ≤ j → j ≤ m → (q.after j).isFull n = true)
    (hnone : ∀ e ∈ (q.after m).queue, isEvictable e = false) (err : RnetError) :
    Ended q n k evicted m (some (q.after m, .error err))

/-- **The loop ends**, after as many rounds as it needs and not more than there are events. -/
theorem ended_makeRoom (q : EventQueue) (n : ℕ) : ∀ (fuel k : ℕ) (evicted : Bool),
    (q.after k).queue.length < fuel →
    ∃ m, Ended q n k evicted m (makeRoom n fuel (q.after k) evicted)
  | 0, _, _, hfu => absurd hfu (Nat.not_lt_zero _)
  | fuel + 1, k, evicted, hfu => by
    unfold makeRoom
    split_ifs with hf
    · rcases evict_after q k with ⟨hev, hn⟩ | ⟨hev, hl⟩
      · rw [hev]
        refine ⟨k, .stuck le_rfl (fun j hkj hj => ?_) (fun j hkj hj => ?_) hn _⟩
        · exact absurd hkj (not_le_of_gt hj)
        · rwa [le_antisymm hj hkj]
      · rw [hev]
        obtain ⟨m, he⟩ := ended_makeRoom q n fuel (k + 1) true (by omega)
        -- the rounds after this one, with this one in front
        have hfi : ∀ j, k ≤ j → (k + 1 ≤ j → (q.after j).isFull n = true) →
            (q.after j).isFull n = true := by
          intro j hkj hla
          rcases Nat.eq_or_lt_of_le hkj with rfl | hlt
          · exact hf
          · exact hla hlt
        have hre : Removed q (k + 1) m → Removed q k m := by
          intro hr j hkj hjm
          rcases Nat.eq_or_lt_of_le hkj with rfl | hlt
          · exact hl
          · exact hr j hlt hjm
        refine ⟨m, ?_⟩
        dsimp only
        generalize makeRoom n fuel (q.after (k + 1)) true = out at he
        cases he with
        | room hk hr hb hro =>
          rw [Bool.true_or, show true = (evicted || decide (k < m)) by simp; omega]
          exact .room (by omega) (hre hr) (fun j hkj hjm => hfi j hkj (hb j · hjm))
            hro
        | stuck hk hr hb hn err =>
          exact .stuck (by omega) (hre hr) (fun j hkj hjm => hfi j hkj (hb j · hjm))
            hn err
    · rw [Bool.not_eq_true] at hf
      have he : Ended q n k evicted k _ :=
        .room (le_refl k) (fun j hkj hj => absurd hkj (not_le_of_gt hj))
          (fun j hkj hj => absurd hkj (not_le_of_gt hj)) hf
      rw [decide_eq_false (lt_irrefl k), Bool.or_false] at he
      exact ⟨k, he⟩

/-! ### Priority publication as a whole -/

/-- `kept` is what is left of `l` once its `k` oldest evictable events are gone. -/
structure Evicted (k : ℕ) (l kept : List Event) : Prop where
  order : kept.Sublist l
  lifecycle : kept.filter (fun e => !isEvictable e) = l.filter fun e => !isEvictable e
  oldest : kept.filter isEvictable = (l.filter isEvictable).drop k

theorem evicted_dropFirst (k : ℕ) (l : List Event) :
    Evicted k l (dropFirst isEvictable k l) :=
  ⟨dropFirst_sublist .., filter_not_dropFirst .., filter_dropFirst ..⟩

theorem weight_filter (l : List Event) : weight size l =
    weight size (l.filter isEvictable) + weight size (l.filter fun e => !isEvictable e) := by
  induction l with
  | nil => rfl
  | cons e l ih =>
    by_cases he : isEvictable e = true
    · rw [List.filter_cons_of_pos he, List.filter_cons_of_neg (by simp [he])]
      simp only [weight_cons]
      omega
    · rw [List.filter_cons_of_neg he, List.filter_cons_of_pos (by simpa using he)]
      simp only [weight_cons]
      omega

/-- The number and the bytes of the events that are left depend on the number of evictions only. -/
theorem Evicted.fits_iff (h : Evicted k l kept) (h' : Evicted k l kept') :
    q.Fits kept e ↔ q.Fits kept' e := by
  have he := h.oldest.trans h'.oldest.symm
  have hli := h.lifecycle.trans h'.lifecycle.symm
  have hl : ∀ l : List Event, l.length =
      (l.filter isEvictable).length + (l.filter fun e => !isEvictable e).length := fun l =>
    List.length_eq_length_filter_add _
  unfold Fits
  rw [hl kept, hl kept', weight_filter kept, weight_filter kept', he, hli]

theorem size_strip_of_diagnostic (h : q.Valid) (hd : isDiagnostic e.eventType = true) (k : ℕ) :
    (q.after k).lacksBytes (size (q.strip e)) = false := by
  have hwe := weight_dropFirst_le k q.queue
  have hb := h.bytes
  have hwi := h.within
  rw [lacksBytes_eq_false (q := q.after k) h.representable]
  show weight size (dropFirst isEvictable k q.queue) + _ ≤ q.byteCapacity
  unfold strip
  split_ifs with hl
  · show _ + 0 ≤ _
    omega
  · rw [hd, Bool.true_and, Bool.not_eq_true, lacksBytes_eq_false h.representable] at hl
    omega

end EventQueue

open EventQueue

theorem strip_cases (q : EventQueue) (e : Event) :
    q.strip e = e ∨ isDiagnostic e.eventType = true ∧ q.strip e = { e with data := [] } := by
  unfold strip
  split_ifs with h
  · exact .inr ⟨(Bool.and_eq_true_iff.mp h).1, rfl⟩
  · exact .inl rfl

variable {q : EventQueue}

theorem isFull_of_diagnostic (h : q.Valid) (hd : isDiagnostic e.eventType = true) (k : ℕ) :
    (q.after k).isFull (size (q.strip e)) = true ↔ (q.after k).queue.length = q.capacity := by
  rw [isFull, size_strip_of_diagnostic h hd k, Bool.or_false, decide_eq_true_iff]
  rfl

/-- A diagnostic costs at most one event: a round that removed one has made room. -/
theorem rounds_of_diagnostic (h : q.Valid) (hd : isDiagnostic e.eventType = true)
    (hr : Removed q 0 m) (hp : 0 < m) : (q.after 1).isFull (size (q.strip e)) = false := by
  have ho := hr 0 le_rfl hp
  have hl := (h.after 0).length
  rw [Bool.eq_false_iff, Ne, isFull_of_diagnostic h hd]
  show ¬(q.after (0 + 1)).queue.length = q.capacity
  have hc : (q.after 0).capacity = q.capacity := rfl
  omega

inductive Published (q : EventQueue) (e : Event) : Option (EventQueue × Result Bool) → Prop
  /-- the event alone exceeds the byte limit -/
  | tooLarge (hlarge : q.byteCapacity < size (q.strip e)) (err : RnetError) :
    Published q e (some (q, .error err))
  /-- after `m` evictions there is room -/
  | accepted {m : ℕ} (hremoved : Removed q 0 m)
    (hfull : ∀ j < m, (q.after j).isFull (size (q.strip e)) = true)
    (hroom : (q.after m).isFull (size (q.strip e)) = false) :
    Published q e (some ((q.after m).append (q.strip e), .ok (decide (0 < m))))
  /-- after `m` evictions there is no room, and nothing is left to evict -/
  | refused {m : ℕ} (hremoved : Removed q 0 m)
    (hfull : ∀ j ≤ m, (q.after j).isFull (size (q.strip e)) = true)
    (hnone : ∀ x ∈ (q.after m).queue, isEvictable x = false) (err : RnetError) :
    Published q e (some (q.after m, .error err))

theorem published_pushPriority (hq : q.Valid) (e : Event) (hfu : q.queue.length < fuel) :
    Published q e (q.pushPriority fuel e) := by
  have hz := hq.after_zero
  unfold pushPriority
  dsimp only
  split_ifs with hl
  · exact .tooLarge hl _
  obtain ⟨m, he⟩ := ended_makeRoom q (size (q.strip e)) fuel 0 false (by rwa [hz])
  rw [hz] at he
  generalize makeRoom (size (q.strip e)) fuel q false = out at he
  cases he with
  | room hk hr hf hro =>
    rw [Bool.false_or]
    exact .accepted hr (fun j => hf j (Nat.zero_le j)) hro
  | stuck hk hr hf hn err =>
    exact .refused hr (fun j => hf j (Nat.zero_le j)) hn err

/-- **Priority publication.** The loop ends. What it keeps stays in order, and what it evicts are
the oldest messages, writability notices and game controls. On success these are as few as make the
event fit, and the event is last. A diagnostic event is refused only by a queue that is full and has
nothing to evict, and costs at most one event. -/
theorem pushPriority_spec {q : EventQueue} (hq : q.Valid) (e : Event) {fuel : ℕ}
    (hfu : q.queue.length < fuel) :
    ∃ q' r k kept, q.pushPriority fuel e = some (q', r) ∧ q'.Valid ∧ Evicted k q.queue kept ∧
      (∀ evicted, r = .ok evicted → q'.queue = kept ++ [q.strip e] ∧ (evicted = true ↔ 0 < k) ∧
        q.Fits kept (q.strip e) ∧
        ∀ j < k, ∀ fewer, Evicted j q.queue fewer → ¬q.Fits fewer (q.strip e)) ∧
      (∀ err, r = .error err → q'.queue = kept) ∧
      (q.strip e = e ∨ isDiagnostic e.eventType = true ∧ q.strip e = { e with data := [] }) ∧
      (isDiagnostic e.eventType = true →
        k ≤ 1 ∧ ((∃ err, r = .error err) ↔
          q.queue.length = q.capacity ∧ ∀ x ∈ q.queue, isEvictable x = false)) := by
  have hs := strip_cases q e
  have hz := hq.after_zero
  have hpu := published_pushPriority hq e hfu
  generalize ho : q.pushPriority fuel e = out at hpu
  -- a diagnostic that is still refused after a round contradicts that round
  have hrou : isDiagnostic e.eventType = true → ∀ {m}, Removed q 0 m → 0 < m →
      (q.after 1).isFull (size (q.strip e)) = true → False := by
    intro hd m hr hp hf
    rw [rounds_of_diagnostic hq hd hr hp] at hf
    cases hf
  cases hpu with
  | tooLarge hla err =>
    refine ⟨q, .error err, 0, q.queue, rfl, hq, ⟨.refl _, rfl, rfl⟩, fun _ h => ?_, fun _ _ => rfl,
      hs, fun hd => ?_⟩
    · cases h
    have hfi := size_strip_of_diagnostic hq hd 0
    rw [hz, lacksBytes_eq_false hq.representable] at hfi
    omega
  | @accepted m hr hf hro =>
    refine ⟨_, _, m, dropFirst isEvictable m q.queue, rfl, (hq.after m).append hro,
      evicted_dropFirst .., fun evicted h => ?_, fun _ h => ?_, hs, fun hd => ⟨?_, ?_⟩⟩
    · cases h
      refine ⟨rfl, decide_eq_true_iff, (hq.after m).isFull_eq_false.mp hro, ?_⟩
      intro j hj fewer hfe hfi
      have hj' : (q.after j).Fits (q.after j).queue (q.strip e) :=
        (hfe.fits_iff (evicted_dropFirst j q.queue)).mp hfi
      have hroo := (hq.after j).isFull_eq_false.mpr hj'
      rw [hf j hj] at hroo
      cases hroo
    · cases h
    · by_contra hm
      exact hrou hd hr (by omega) (hf 1 (by omega))
    refine ⟨fun ⟨err, h⟩ => (by cases h), fun ⟨hc, hn⟩ => ?_⟩
    -- a full queue without evictable events leaves no first round
    have hfir := (isFull_of_diagnostic hq hd 0).mpr (by rw [hz]; exact hc)
    rcases Nat.eq_zero_or_pos m with rfl | hp
    · rw [hro] at hfir
      cases hfir
    have hl := hr 0 le_rfl hp
    have hsa : (q.after (0 + 1)).queue = q.queue := by
      show dropFirst isEvictable (0 + 1) q.queue = q.queue
      rw [dropFirst_succ, dropFirst_zero]
      exact List.eraseP_of_forall_not fun x hx => by simp [hn x hx]
    rw [hsa, hz] at hl
    omega
  | @refused m hr hf hn err =>
    refine ⟨_, _, m, dropFirst isEvictable m q.queue, rfl, hq.after m, evicted_dropFirst ..,
      fun _ h => ?_, fun _ _ => rfl, hs, fun hd => ?_⟩
    · cases h
    have hm : m = 0 := by
      by_contra hm
      exact hrou hd hr (by omega) (hf 1 (by omega))
    subst hm
    rw [hz] at hn
    refine ⟨Nat.zero_le 1, fun _ => ⟨?_, hn⟩, fun _ => ⟨err, rfl⟩⟩
    have hc := (isFull_of_diagnostic hq hd 0).mp (hf 0 le_rfl)
    rwa [hz] at hc

/-- A queue of two events that is full: a message and an authorization request. -/
def crowded : EventQueue :=
  ⟨2, 8, 5, [⟨.message, 1, 2, 0, .ok, [1, 2, 3], false⟩, ⟨.authRequest, 1, 3, 0, .ok, [4, 5], false⟩]⟩

theorem valid_crowded : crowded.Valid := ⟨by decide, by decide, by decide, by decide, by decide⟩

/-- A close with a long diagnostic evicts the message and is queued without its diagnostic. -/
theorem pushPriority_spec_crowded :
    let e : Event := ⟨.sessionClosed, 1, 2, 0, .timeout, List.replicate 100 0, false⟩
    crowded.Valid ∧ isDiagnostic e.eventType = true ∧
      ∃ q' r k kept, crowded.pushPriority 3 e = some (q', r) ∧ Evicted k crowded.queue kept ∧
        k ≤ 1 ∧ ¬∃ err, r = .error err := by
  intro e
  obtain ⟨q', r, k, kept, hp, -, he, -, -, -, hd⟩ :=
    pushPriority_spec valid_crowded e (show crowded.queue.length < 3 by decide)
  obtain ⟨hk, her⟩ := hd rfl
  refine ⟨valid_crowded, rfl, q', r, k, kept, hp, he, hk, fun h => ?_⟩
  exact absurd (her.mp h).2 (by decide)

end Rnet.Core.Queue
