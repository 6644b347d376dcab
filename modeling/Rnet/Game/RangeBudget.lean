import Rnet.Lib.GuardedRun
import Rnet.Game.RangeState

/-! # The two budgets of retained events

Early data is charged to the buffered counters, in the buffer of its session and, once the session
is ready, in the backlog. Every other event of the backlog is charged to the public counters. Both
pairs of counters have the same limits. The source releases charges by subtractions and guards them
by debug assertions; `checked` is the step with all of them, and it has no answer where a
subtraction would underflow or an assertion would fail.

`poll` asks `public_capacity` before it takes a batch of transport events and then queues at most one
event for each of them. The rest of the announced capacity is part of the state here: it is set by an
announcement and used up by queued events, and anything may happen in between. -/

namespace Rnet.Game.RangeBudget

open Rnet.Core Lib.FiniteMap Lib.GuardedRun Event RangeState RangeState.RangeRuntimeState

/-! ### The operations with their checks -/

/-- `release_reservation` with its assertions. -/
def releaseReservation? (r : RangeRuntimeState) (messages bytes : ℕ) : Option RangeRuntimeState :=
  if messages ≤ r.bufferedMessages ∧ bytes ≤ r.bufferedBytes then
    some (r.releaseReservation messages bytes)
  else none

def releasePublic? (r : RangeRuntimeState) (messages bytes : ℕ) : Option RangeRuntimeState :=
  if messages ≤ r.publicMessages ∧ bytes ≤ r.publicBytes then
    some { r with
      publicMessages := r.publicMessages - messages
      publicBytes := r.publicBytes - bytes }
  else none

def releaseCompleted? (r : RangeRuntimeState) (c : CompletedEvent) : Option RangeRuntimeState :=
  match c.reservedBytes with
  | some bytes => releaseReservation? r 1 bytes
  | none => releasePublic? r 1 c.event.payloadBytes

def drainLoop? (capacity : ℕ) : List CompletedEvent → RangeRuntimeState → List GameEvent →
    Option (RangeRuntimeState × List GameEvent)
  | [], r, output => some ({ r with completed := [] }, output)
  | c :: rest, r, output =>
    if output.length < capacity then
      (releaseCompleted? r c).bind fun r => drainLoop? capacity rest r (output ++ [c.event])
    else some ({ r with completed := c :: rest }, output)

def drainCompleted? (r : RangeRuntimeState) (output : List GameEvent) (capacity : ℕ) :
    Option (RangeRuntimeState × List GameEvent) :=
  drainLoop? capacity r.completed r output

def publicCapacity? (r : RangeRuntimeState) : Option (ℕ × ℕ) :=
  if r.publicMessages ≤ r.maxBufferedMessages ∧ r.publicBytes ≤ r.maxBufferedBytes then
    some r.publicCapacity
  else none

/-- `queue_public`. The second assertion subtracts as well. -/
def queuePublic? (r : RangeRuntimeState) (event : GameEvent) (output : List GameEvent)
    (capacity : ℕ) : Option (RangeRuntimeState × List GameEvent) :=
  if capacity ≤ output.length || !r.completed.isEmpty then
    if r.publicMessages < r.maxBufferedMessages ∧ r.publicBytes ≤ r.maxBufferedBytes ∧
        event.payloadBytes ≤ r.maxBufferedBytes - r.publicBytes then
      drainCompleted? { r with
        publicMessages := r.publicMessages + 1
        publicBytes := r.publicBytes + event.payloadBytes
        completed := enqueue event r.completed } output capacity
    else none
  else drainCompleted? r (output ++ [event]) capacity

def releaseSession? (r : RangeRuntimeState) (session : Handle) : Option RangeRuntimeState :=
  match r.sessions.lookup session with
  | none => some r
  | some state =>
    releaseReservation? { r with sessions := r.sessions.erase session } state.buffered.length
      state.bufferedBytes

def forgetSession? (r : RangeRuntimeState) (session : Handle) : Option RangeRuntimeState :=
  (releaseSession? r session).bind fun r =>
    let gone := r.completed.filter fun c => c.event.belongsTo session
    let reserved := gone.filterMap CompletedEvent.reservedBytes
    let ordinary := gone.filter fun c => c.reservedBytes.isNone
    (releaseReservation? { r with completed := r.completed.filter fun c => !c.event.belongsTo session }
      reserved.length reserved.sum).bind fun r =>
        releasePublic? r ordinary.length (ordinary.map fun c => c.event.payloadBytes).sum

/-! ### Runs -/

/-- The negotiation state and what is left of the announced capacity. -/
structure Store where
  range : RangeRuntimeState
  slots : ℕ
  bytes : ℕ

/-- Calls of the store. -/
inductive Input
  /-- A negotiation starts, without early data. -/
  | register (session : Handle) (state : RangeSession)
  /-- A negotiation moves on; its early data stays. -/
  | edit (session : Handle) (state : RangeSession)
  | buffer (message : GameMessage)
  | complete (session : Handle)
  | announce
  | queue (event : GameEvent) (output : List GameEvent) (capacity : ℕ)
  | drain (output : List GameEvent) (capacity : ℕ)
  | forget (session : Handle)
  | clear

def edited (r : RangeRuntimeState) (session : Handle) (state : RangeSession) : RangeRuntimeState :=
  match r.sessions.lookup session with
  | none => r
  | some old =>
    { r with sessions := r.sessions.insert session { state with
        buffered := old.buffered
        bufferedBytes := old.bufferedBytes } }

def registered (r : RangeRuntimeState) (session : Handle) (state : RangeSession) :
    RangeRuntimeState :=
  { r with sessions := r.sessions.insert session { state with buffered := [], bufferedBytes := 0 } }

def step (w : Store) : Input → Store
  | .register session state => { w with range := registered w.range session state }
  | .edit session state => { w with range := edited w.range session state }
  | .buffer message => { w with range := (w.range.bufferMessage message).1 }
  | .complete session => { w with range := w.range.completeBuffered session }
  | .announce => { w with slots := w.range.publicCapacity.1, bytes := w.range.publicCapacity.2 }
  | .queue event output capacity =>
    { range := (w.range.queuePublic event output capacity).1
      slots := w.slots - 1
      bytes := w.bytes - event.payloadBytes }
  | .drain output capacity => { w with range := (w.range.drainCompleted output capacity).1 }
  | .forget session => { w with range := w.range.forgetSession session }
  | .clear => { w with range := w.range.clear }

/-- The step with the checks of the source; the operations without subtractions have none. -/
def checked (w : Store) : Input → Option Store
  | .announce => (publicCapacity? w.range).map fun c => { w with slots := c.1, bytes := c.2 }
  | .queue event output capacity =>
    (queuePublic? w.range event output capacity).map fun result =>
      { range := result.1, slots := w.slots - 1, bytes := w.bytes - event.payloadBytes }
  | .drain output capacity =>
    (drainCompleted? w.range output capacity).map fun result => { w with range := result.1 }
  | .forget session => (forgetSession? w.range session).map fun r => { w with range := r }
  | input => some (step w input)

/-- Handles are not reused, and events are queued within the announced capacity. -/
def Permitted (w : Store) : Input → Prop
  | .register session _ => w.range.sessions.lookup session = none
  | .queue event _ _ => 0 < w.slots ∧ event.payloadBytes ≤ w.bytes
  | _ => True

instance (w : Store) : ∀ input, Decidable (Permitted w input)
  | .register _ _ => inferInstanceAs (Decidable (_ = _))
  | .queue _ _ _ => inferInstanceAs (Decidable (_ ∧ _))
  | .edit _ _ | .buffer _ | .complete _ | .announce | .drain _ _ | .forget _ | .clear =>
    inferInstanceAs (Decidable True)

def machine : Machine Store Input where
  init w := ∃ maxMessages maxBytes, w = ⟨withBufferLimits maxMessages maxBytes, 0, 0⟩
  step := step

/-! ### What the counters stand for -/

def earlyBytes (state : RangeSession) : ℕ := (state.buffered.map fun m => m.payload.length).sum

def reserved (l : List CompletedEvent) : List ℕ := l.filterMap CompletedEvent.reservedBytes

def ordinary (l : List CompletedEvent) : List CompletedEvent :=
  l.filter fun c => c.reservedBytes.isNone

def ordinaryBytes (l : List CompletedEvent) : ℕ :=
  ((ordinary l).map fun c => c.event.payloadBytes).sum

/-- A session's buffer is counted exactly and within its own caps. -/
structure Capped (state : RangeSession) : Prop where
  exact : state.bufferedBytes = earlyBytes state
  messages : state.buffered.length ≤ RangeState.maxBufferedMessages
  bytes : state.bufferedBytes ≤ RangeState.maxBufferedBytes

/-- **The counters are exact and within their limits.** -/
structure Balanced (r : RangeRuntimeState) : Prop where
  bufferedMessages : r.bufferedMessages =
    total r.sessions (fun state => state.buffered.length) + (reserved r.completed).length
  bufferedBytes : r.bufferedBytes = total r.sessions earlyBytes + (reserved r.completed).sum
  publicMessages : r.publicMessages = (ordinary r.completed).length
  publicBytes : r.publicBytes = ordinaryBytes r.completed
  maxBuffered : r.bufferedMessages ≤ r.maxBufferedMessages ∧ r.bufferedBytes ≤ r.maxBufferedBytes
  maxPublic : r.publicMessages ≤ r.maxBufferedMessages ∧ r.publicBytes ≤ r.maxBufferedBytes
  sessions : ∀ session state, r.sessions.lookup session = some state → Capped state
  reservations : ∀ c ∈ r.completed, ∀ bytes, c.reservedBytes = some bytes →
    bytes = c.event.payloadBytes

/-- The counters are exact and have room for `slots` more public events of `bytes` bytes. -/
structure Room (slots bytes : ℕ) (r : RangeRuntimeState) : Prop extends Balanced r where
  slots : slots + r.publicMessages ≤ r.maxBufferedMessages
  bytes : bytes + r.publicBytes ≤ r.maxBufferedBytes

/-! ### Charges of a backlog -/

/-- The charges of a backlog are those of two parts of it. -/
structure Split (l l₁ l₂ : List CompletedEvent) : Prop where
  reservedMessages : (reserved l).length = (reserved l₁).length + (reserved l₂).length
  reservedBytes : (reserved l).sum = (reserved l₁).sum + (reserved l₂).sum
  publicMessages : (ordinary l).length = (ordinary l₁).length + (ordinary l₂).length
  publicBytes : ordinaryBytes l = ordinaryBytes l₁ + ordinaryBytes l₂

theorem split_of_perm (h : l.Perm (l₁ ++ l₂)) : Split l l₁ l₂ := by
  have hr : (reserved l).Perm (reserved l₁ ++ reserved l₂) := by
    unfold reserved
    rw [← List.filterMap_append]
    exact h.filterMap _
  have ho : (ordinary l).Perm (ordinary l₁ ++ ordinary l₂) := by
    unfold ordinary
    rw [← List.filter_append]
    exact h.filter _
  refine ⟨?_, ?_, ?_, ?_⟩
  · rw [hr.length_eq, List.length_append]
  · rw [hr.sum_eq, List.sum_append]
  · rw [ho.length_eq, List.length_append]
  · unfold ordinaryBytes
    rw [(ho.map _).sum_eq, List.map_append, List.sum_append]

theorem split_enqueue (event : GameEvent) (l : List CompletedEvent) :
    Split (enqueue event l) l [⟨event, none⟩] := by
  obtain ⟨front, back, rfl, he, -⟩ := enqueue_spec event l
  rw [he]
  refine split_of_perm ?_
  exact List.perm_middle.trans (List.perm_append_singleton _ _).symm

theorem split_filter (p : CompletedEvent → Bool) (l : List CompletedEvent) :
    Split l (l.filter p) (l.filter fun c => !p c) :=
  split_of_perm (List.filter_append_perm p l).symm

/-! ### One operation -/

section Operations

variable {slots bytes : ℕ} {r : RangeRuntimeState}

theorem capped_nil (hb : state.buffered = []) (hby : state.bufferedBytes = 0) : Capped state := by
  refine ⟨?_, ?_, ?_⟩
  · rw [hby, earlyBytes, hb]
    rfl
  · rw [hb]
    exact Nat.zero_le _
  · rw [hby]
    exact Nat.zero_le _

section

variable (h : Room slots bytes r)
include h

theorem Room.capped_insert (session : Handle) (hs : Capped state) :
    ∀ other found, (r.sessions.insert session state).lookup other = some found → Capped found := by
  intro other found hf
  rw [lookup_insert_ite] at hf
  split_ifs at hf
  · cases hf
    exact hs
  · exact h.sessions other found hf

theorem Room.registered {session : Handle} (state : RangeSession)
    (hf : r.sessions.lookup session = none) : Room slots bytes (registered r session state) := by
  have hm := total_insert r.sessions (fun state => state.buffered.length) session
    { state with buffered := [], bufferedBytes := 0 }
  have hb := total_insert r.sessions earlyBytes session
    { state with buffered := [], bufferedBytes := 0 }
  rw [hf] at hm hb
  refine { h with bufferedMessages := ?_, bufferedBytes := ?_, sessions := ?_ }
  · exact h.bufferedMessages.trans (congrArg (· + _) hm.symm)
  · exact h.bufferedBytes.trans (congrArg (· + _) hb.symm)
  · exact h.capped_insert session (capped_nil rfl rfl)

theorem Room.edited (session : Handle) (state : RangeSession) :
    Room slots bytes (edited r session state) := by
  unfold RangeBudget.edited
  split
  · exact h
  rename_i old ho
  have hm := total_insert r.sessions (fun state => state.buffered.length) session
    { state with buffered := old.buffered, bufferedBytes := old.bufferedBytes }
  have hb := total_insert r.sessions earlyBytes session
    { state with buffered := old.buffered, bufferedBytes := old.bufferedBytes }
  rw [ho] at hm hb
  refine { h with bufferedMessages := ?_, bufferedBytes := ?_, sessions := ?_ }
  · exact h.bufferedMessages.trans (congrArg (· + _) (Nat.add_right_cancel hm).symm)
  · exact h.bufferedBytes.trans (congrArg (· + _) (Nat.add_right_cancel hb).symm)
  · obtain ⟨he, hm, hb⟩ := h.sessions session old ho
    exact h.capped_insert session ⟨he, hm, hb⟩

theorem Room.buffer (message : GameMessage) : Room slots bytes (r.bufferMessage message).1 := by
  unfold bufferMessage
  split
  · exact h
  rename_i state hst
  dsimp only
  split_ifs with hre hsu hs hc ht hr
  · exact h
  · exact h
  · exact h
  · exact h
  · exact h
  · exact h
  simp only [not_or, Nat.not_le, Nat.not_lt] at hs hr
  have he : earlyBytes { state with
      bufferedBytes := state.bufferedBytes + message.payload.length
      buffered := state.buffered ++ [message] } =
      earlyBytes state + message.payload.length := by
    unfold earlyBytes
    rw [List.map_append, List.sum_append]
    rfl
  have hme := total_insert r.sessions (fun state => state.buffered.length) message.session
    { state with
      bufferedBytes := state.bufferedBytes + message.payload.length
      buffered := state.buffered ++ [message] }
  have hby := total_insert r.sessions earlyBytes message.session
    { state with
      bufferedBytes := state.bufferedBytes + message.payload.length
      buffered := state.buffered ++ [message] }
  rw [hst] at hme hby
  simp only [Option.map_some, Option.getD_some, List.length_append, List.length_singleton]
    at hme
  simp only [Option.map_some, Option.getD_some, he] at hby
  have hm := h.bufferedMessages
  have hb := h.bufferedBytes
  refine { h with
    bufferedMessages := ?_, bufferedBytes := ?_, maxBuffered := hr, sessions := ?_ }
  · dsimp only
    omega
  · dsimp only
    omega
  refine h.capped_insert message.session ⟨?_, ?_, hs.2⟩
  · rw [he, ← (h.sessions _ _ hst).exact]
  · rw [List.length_append]
    exact hs.1

theorem Room.complete (session : Handle) : Room slots bytes (r.completeBuffered session) := by
  unfold completeBuffered
  split
  · exact h
  rename_i state hst
  have hme := total_insert r.sessions (fun state => state.buffered.length) session
    { state with bufferedBytes := 0, buffered := [] }
  have hby := total_insert r.sessions earlyBytes session
    { state with bufferedBytes := 0, buffered := [] }
  rw [hst] at hme hby
  simp only [Option.map_some, Option.getD_some, List.length_nil] at hme
  simp only [Option.map_some, Option.getD_some] at hby
  have he : earlyBytes { state with bufferedBytes := 0, buffered := [] } = 0 := rfl
  have hs := split_of_perm (List.Perm.refl (r.completed ++ state.buffered.map fun message =>
    (⟨.message message, some message.payload.length⟩ : CompletedEvent)))
  have hmo : reserved (state.buffered.map fun message =>
      (⟨.message message, some message.payload.length⟩ : CompletedEvent)) =
      state.buffered.map fun m => m.payload.length := by
    unfold reserved
    rw [List.filterMap_map]
    exact congrFun List.filterMap_eq_map _
  have ho : ordinary (state.buffered.map fun message =>
      (⟨.message message, some message.payload.length⟩ : CompletedEvent)) = [] := by
    refine List.filter_eq_nil_iff.mpr fun c hc => ?_
    obtain ⟨m, -, rfl⟩ := List.mem_map.mp hc
    exact Bool.false_ne_true
  have hr := hs.reservedMessages
  have hre := hs.reservedBytes
  have hp := hs.publicMessages
  have hpu := hs.publicBytes
  rw [hmo, List.length_map] at hr
  rw [hmo, ← earlyBytes] at hre
  rw [ho, List.length_nil] at hp
  simp only [ordinaryBytes, ho, List.map_nil, List.sum_nil] at hpu
  have hm := h.bufferedMessages
  have hb := h.bufferedBytes
  refine { h with
    bufferedMessages := ?_, bufferedBytes := ?_, publicMessages := ?_, publicBytes := ?_
    sessions := ?_, reservations := ?_ }
  · dsimp only
    omega
  · dsimp only
    omega
  · exact h.publicMessages.trans hp.symm
  · exact h.publicBytes.trans hpu.symm
  · exact h.capped_insert session (capped_nil rfl rfl)
  intro c hc bytes hby
  rcases List.mem_append.mp hc with hc | hc
  · exact h.reservations c hc bytes hby
  obtain ⟨m, -, rfl⟩ := List.mem_map.mp hc
  cases hby
  rfl

/-- The state when a part of the backlog is gone and its charges are released. -/
def released (r : RangeRuntimeState) (gone kept : List CompletedEvent) : RangeRuntimeState :=
  { r with
    completed := kept
    bufferedMessages := r.bufferedMessages - (reserved gone).length
    bufferedBytes := r.bufferedBytes - (reserved gone).sum
    publicMessages := r.publicMessages - (ordinary gone).length
    publicBytes := r.publicBytes - ordinaryBytes gone }

/-- The counters cover what is released for a part of the backlog. -/
structure Covers (r : RangeRuntimeState) (gone : List CompletedEvent) : Prop where
  bufferedMessages : (reserved gone).length ≤ r.bufferedMessages
  bufferedBytes : (reserved gone).sum ≤ r.bufferedBytes
  publicMessages : (ordinary gone).length ≤ r.publicMessages
  publicBytes : ordinaryBytes gone ≤ r.publicBytes

/-- **Any part of the backlog can be released.** -/
theorem Room.release (hs : Split r.completed gone kept) (hk : ∀ c ∈ kept, c ∈ r.completed) :
    Covers r gone ∧ Room slots bytes (released r gone kept) := by
  obtain ⟨hr, hre, hpu, hpub⟩ := hs
  have hm := h.bufferedMessages
  have hb := h.bufferedBytes
  have hp := h.publicMessages
  have hq := h.publicBytes
  have hsl := h.slots
  have hby := h.bytes
  obtain ⟨hmax, hmaxBytes⟩ := h.maxBuffered
  obtain ⟨hmaxPublic, hma⟩ := h.maxPublic
  refine ⟨⟨by omega, by omega, by omega, by omega⟩, ⟨⟨?_, ?_, ?_, ?_, ⟨?_, ?_⟩, ⟨?_, ?_⟩, h.sessions,
    fun c hc => h.reservations c (hk c hc)⟩, ?_, ?_⟩⟩
  all_goals
    unfold released
    dsimp only
    omega

end

/-- **An entry of the backlog covers what is released for it.** -/
theorem Room.releaseCompleted (h : Room slots bytes { r with completed := c :: rest }) :
    releaseCompleted? r c = some (r.releaseCompleted c) ∧
      Room slots bytes { r.releaseCompleted c with completed := rest } := by
  obtain ⟨hcov, hro⟩ := h.release (split_of_perm (List.Perm.refl ([c] ++ rest)))
    (fun c' hc' => List.mem_cons_of_mem _ hc')
  unfold releaseCompleted? RangeRuntimeState.releaseCompleted
  rcases hc : c.reservedBytes with - | size
  · have hr : reserved [c] = [] := by
      simp only [reserved, List.filterMap_cons, hc, List.filterMap_nil]
    have ho : ordinary [c] = [c] := by
      simp only [ordinary, List.filter_cons, hc, Option.isNone_none, if_true, List.filter_nil]
    have hb : ordinaryBytes [c] = c.event.payloadBytes := by
      simp only [ordinaryBytes, ho, List.map_cons, List.map_nil, List.sum_singleton]
    obtain ⟨-, -, hm, hco⟩ := hcov
    rw [ho] at hm
    rw [hb] at hco
    unfold released at hro
    rw [hr, ho, hb] at hro
    exact ⟨if_pos ⟨hm, hco⟩, hro⟩
  · have hr : reserved [c] = [size] := by
      simp only [reserved, List.filterMap_cons, hc, List.filterMap_nil]
    have ho : ordinary [c] = [] := by
      simp only [ordinary, List.filter_cons, hc, Option.isNone_some, Bool.false_eq_true, if_false,
        List.filter_nil]
    have hb : ordinaryBytes [c] = 0 := by
      simp only [ordinaryBytes, ho, List.map_nil, List.sum_nil]
    obtain ⟨hm, hco, -, -⟩ := hcov
    rw [hr] at hm hco
    unfold released at hro
    rw [hr, ho, hb] at hro
    exact ⟨if_pos ⟨hm, hco⟩, hro⟩

theorem Room.drainLoop (capacity : ℕ) : ∀ (l : List CompletedEvent) {r : RangeRuntimeState}
    (output : List GameEvent), Room slots bytes { r with completed := l } →
      drainLoop? capacity l r output = some (RangeRuntimeState.drainLoop capacity l r output) ∧
        Room slots bytes (RangeRuntimeState.drainLoop capacity l r output).1
  | [], _, _, h => ⟨rfl, h⟩
  | c :: rest, r, output, h => by
    unfold drainLoop? RangeRuntimeState.drainLoop
    split_ifs
    · obtain ⟨hc, hr⟩ := h.releaseCompleted
      rw [hc]
      exact Room.drainLoop capacity rest (output ++ [c.event]) hr
    · exact ⟨rfl, h⟩

theorem Room.drain (h : Room slots bytes r) (output : List GameEvent) (capacity : ℕ) :
    drainCompleted? r output capacity = some (r.drainCompleted output capacity) ∧
      Room slots bytes (r.drainCompleted output capacity).1 :=
  Room.drainLoop capacity r.completed output h

/-- **An event within the announced capacity is retained.** -/
theorem Room.queue (h : Room (slots + 1) (bytes + event.payloadBytes) r) (output : List GameEvent)
    (capacity : ℕ) :
    queuePublic? r event output capacity = some ((r.queuePublic event output capacity).1,
      (r.queuePublic event output capacity).2.1) ∧
      Room slots bytes (r.queuePublic event output capacity).1 := by
  have hsl := h.slots
  have hb := h.bytes
  unfold queuePublic? queuePublic
  by_cases hde : (decide (capacity ≤ output.length) || !r.completed.isEmpty) = true
  · obtain ⟨hr, hre, hp, hpu⟩ :=
      split_enqueue event r.completed
    have ho : (ordinary [⟨event, none⟩]).length = 1 := rfl
    have hs : ordinaryBytes [⟨event, none⟩] = event.payloadBytes := Nat.add_zero _
    have hn : reserved [⟨event, none⟩] = [] := rfl
    rw [hn] at hr hre
    have hpublic := h.publicMessages
    have hpub := h.publicBytes
    have hro : Room slots bytes { r with
        publicMessages := r.publicMessages + 1
        publicBytes := r.publicBytes + event.payloadBytes
        completed := enqueue event r.completed } := by
      refine ⟨⟨?_, ?_, ?_, ?_, h.maxBuffered, ⟨?_, ?_⟩, h.sessions, ?_⟩, ?_, ?_⟩
      · exact h.bufferedMessages.trans (congrArg (_ + ·) hr.symm)
      · exact h.bufferedBytes.trans (congrArg (_ + ·) hre.symm)
      · dsimp only
        omega
      · dsimp only
        omega
      · dsimp only
        omega
      · dsimp only
        omega
      · intro c hc size hs
        obtain ⟨front, back, hsp, he, -⟩ := enqueue_spec event r.completed
        rw [he] at hc
        rcases List.mem_append.mp hc with hc | hc
        · exact h.reservations c (hsp ▸ List.mem_append_left _ hc) size hs
        rcases List.mem_cons.mp hc with rfl | hc
        · cases hs
        · exact h.reservations c (hsp ▸ List.mem_append_right _ hc) size hs
      · dsimp only
        omega
      · dsimp only
        omega
    obtain ⟨hch, hd⟩ := hro.drain output capacity
    simp only [if_pos hde]
    rw [if_pos ⟨by omega, by omega, by omega⟩, hch]
    exact ⟨rfl, hd⟩
  · have hro : Room slots bytes r := by
      refine { h with slots := ?_, bytes := ?_ }
      · omega
      · omega
    obtain ⟨hch, hd⟩ := hro.drain (output ++ [event]) capacity
    simp only [if_neg hde]
    rw [hch]
    exact ⟨rfl, hd⟩

theorem Room.releaseSession (h : Room slots bytes r) (session : Handle) :
    releaseSession? r session = some (r.releaseSession session) ∧
      Room slots bytes (r.releaseSession session) := by
  unfold releaseSession? RangeRuntimeState.releaseSession
  rcases hs : r.sessions.lookup session with - | state
  · exact ⟨rfl, h⟩
  have hme := total_erase r.sessions (fun state => state.buffered.length) session
  have hby := total_erase r.sessions earlyBytes session
  rw [hs] at hme hby
  simp only [Option.map_some, Option.getD_some] at hme hby
  have he := (h.sessions session state hs).exact
  have hm := h.bufferedMessages
  have hb := h.bufferedBytes
  obtain ⟨hma, hmax⟩ := h.maxBuffered
  have hc : state.buffered.length ≤ r.bufferedMessages ∧
      state.bufferedBytes ≤ r.bufferedBytes := by omega
  refine ⟨if_pos hc, ?_⟩
  dsimp only [releaseReservation]
  refine { h with
    bufferedMessages := ?_, bufferedBytes := ?_, maxBuffered := ?_
    sessions := fun other found hf => h.sessions other found (Sub.erase _ _ _ _ hf) }
  all_goals
    dsimp only
    omega

/-- **A session can be forgotten at any point.** -/
theorem Room.forget (h : Room slots bytes r) (session : Handle) :
    forgetSession? r session = some (r.forgetSession session) ∧
      Room slots bytes (r.forgetSession session) := by
  obtain ⟨hch, hwi⟩ := h.releaseSession session
  obtain ⟨hco, hr⟩ := hwi.release
    (split_filter (fun c => c.event.belongsTo session) _) (fun c hc => List.mem_of_mem_filter hc)
  unfold forgetSession?
  rw [hch]
  refine ⟨?_, hr⟩
  dsimp only [Option.bind_some]
  unfold releaseReservation?
  rw [if_pos ⟨hco.bufferedMessages, hco.bufferedBytes⟩]
  exact if_pos ⟨hco.publicMessages, hco.publicBytes⟩

theorem Room.clear (h : Room slots bytes r) : Room slots bytes r.clear where
  bufferedMessages := rfl
  bufferedBytes := rfl
  publicMessages := rfl
  publicBytes := rfl
  maxBuffered := ⟨Nat.zero_le _, Nat.zero_le _⟩
  maxPublic := ⟨Nat.zero_le _, Nat.zero_le _⟩
  sessions := fun session state hs => by
    rw [show r.clear.sessions = ∅ from rfl, AList.lookup_empty] at hs
    cases hs
  reservations := nofun
  slots := (Nat.le_add_right _ _).trans h.slots
  bytes := (Nat.le_add_right _ _).trans h.bytes

end Operations

/-! ### Whole runs -/

def Sound (w : Store) : Prop := Room w.slots w.bytes w.range

theorem sound_step (h : Sound w) (hp : Permitted w input) :
    checked w input = some (step w input) ∧ Sound (step w input) := by
  cases input with
  | register session state => exact ⟨rfl, Room.registered h state hp⟩
  | edit session state => exact ⟨rfl, Room.edited h session state⟩
  | buffer message => exact ⟨rfl, Room.buffer h message⟩
  | complete session => exact ⟨rfl, Room.complete h session⟩
  | announce =>
    obtain ⟨hm, hb⟩ := h.maxPublic
    refine ⟨?_, { h with slots := ?_, bytes := ?_ }⟩
    · simp only [checked, publicCapacity?, if_pos h.maxPublic]
      rfl
    · exact (Nat.sub_add_cancel hm).le
    · exact (Nat.sub_add_cancel hb).le
  | queue event output capacity =>
    obtain ⟨hs, hb⟩ := hp
    have hr : Room (w.slots - 1 + 1) (w.bytes - event.payloadBytes + event.payloadBytes)
        w.range := by
      rw [Nat.sub_add_cancel hs, Nat.sub_add_cancel hb]
      exact h
    obtain ⟨hc, hq⟩ := hr.queue output capacity
    refine ⟨?_, hq⟩
    simp only [checked, hc]
    rfl
  | drain output capacity =>
    obtain ⟨hc, hd⟩ := Room.drain h output capacity
    refine ⟨?_, hd⟩
    simp only [checked, hc]
    rfl
  | forget session =>
    obtain ⟨hc, hf⟩ := Room.forget h session
    refine ⟨?_, hf⟩
    simp only [checked, hc]
    rfl
  | clear => exact ⟨rfl, Room.clear h⟩

theorem room_initial (maxMessages maxBytes : ℕ) :
    Room 0 0 (withBufferLimits maxMessages maxBytes) := by
  refine ⟨⟨rfl, rfl, rfl, rfl, ⟨Nat.zero_le _, Nat.zero_le _⟩, ⟨Nat.zero_le _, Nat.zero_le _⟩, ?_,
    nofun⟩, Nat.zero_le _, Nat.zero_le _⟩
  intro session state hs
  rw [show (withBufferLimits maxMessages maxBytes).sessions = ∅ from rfl, AList.lookup_empty]
    at hs
  cases hs

theorem sound_of_reach (h : machine.Reach Permitted w) : Sound w := by
  refine h.invariant (I := Sound) ?_ fun s a hs hg => (sound_step hs hg).2
  rintro _ ⟨maxMessages, maxBytes, rfl⟩
  exact room_initial maxMessages maxBytes

/-- **In every run within the announced capacity the counters are exact and within their limits, every
session buffer is within its caps, and no operation underflows or fails an assertion.** -/
theorem retained_events_accounted {w : Store} (h : machine.Reach Permitted w) :
    Balanced w.range ∧ ∀ input, Permitted w input → checked w input = some (step w input) :=
  ⟨(sound_of_reach h).toBalanced, fun _ hp => (sound_step (sound_of_reach h) hp).1⟩

def waiting : RangeSession where
  endpoint := 1
  protocol := ⟨7, 1, 1, 0, 0⟩
  nonce := .zero
  selected := none
  serverHandle := 0
  oldSession := none
  serverResume := false
  phase := .clientAwaitSelect
  deadline := 3000
  nextRetry := 100
  buffered := []
  bufferedBytes := 0

/-- Two early messages, one of them empty, that end in the backlog behind the readiness; a partial
drain, and the session is forgotten with one message left. -/
def earlyData : List Input :=
  [.register 5 waiting, .buffer ⟨1, 5, none, none, 0, [1, 2, 3]⟩,
    .buffer ⟨1, 5, none, none, 0, []⟩, .announce, .edit 5 { waiting with phase := .clientReady },
    .complete 5, .queue (.sessionReady 1 5) [] 0, .drain [] 2, .forget 5]

theorem retained_events_accounted_early_data :
    Balanced (machine.run ⟨withBufferLimits 2 3, 0, 0⟩ earlyData).range ∧
      ∀ input, Permitted (machine.run ⟨withBufferLimits 2 3, 0, 0⟩ earlyData) input →
        checked (machine.run ⟨withBufferLimits 2 3, 0, 0⟩ earlyData) input =
          some (step (machine.run ⟨withBufferLimits 2 3, 0, 0⟩ earlyData) input) :=
  retained_events_accounted
    (Machine.reach_run earlyData (.start ⟨2, 3, rfl⟩) (by decide +kernel))

end Rnet.Game.RangeBudget
