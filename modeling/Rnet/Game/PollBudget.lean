import Rnet.Core.QueueRuns
import Rnet.Game.Accounts
import Rnet.Game.Announcements
import Rnet.Game.Outcomes
import Rnet.Game.Readiness

/-! # Polls within the staging budget

A poll asks for the capacity of the backlog, takes no more from the transport queue than fits, and
converts the taken events one by one while the backlog changes under its hands. Every event becomes at
most one retained event that is no larger, so what was taken always finds room. -/

namespace Rnet.Game.PollBudget

open Rnet.Core Lib.BigEndian Lib.WeightedQueue
open Lib.FiniteMap (Table)
open Event RangeState Network Game.Runtime Game.Runtime.GameRuntime RangeBudget Steps Tickets
open Takeover (descends_step)
open Conversion Announcements Outcomes Accounts
open Rnet.Core.Queue (size EventQueue)

def batch (g : GameRuntime) : List Core.Event := g.poll.elim [] Poll.batch

/-- **What was taken fits, and a poll collects no more than it may return.** -/
structure Staged (maxMessages maxBytes : ℕ) (g : GameRuntime) : Prop where
  room : Limited maxMessages maxBytes (batch g).length (weight size (batch g)) g.range
  output : ∀ p, g.poll = some p → p.output.length ≤ p.capacity

/-! ### Draining and staging -/

variable {capacity : ℕ}

theorem length_drainLoop : ∀ (l : List CompletedEvent) (r : RangeRuntimeState)
    {output : List GameEvent}, output.length ≤ capacity →
      (RangeRuntimeState.drainLoop capacity l r output).2.length ≤ capacity
  | [], _, _, h => h
  | c :: rest, r, output, h => by
    unfold RangeRuntimeState.drainLoop
    split_ifs with hr
    · refine length_drainLoop rest _ ?_
      rw [List.length_append]
      exact hr
    · exact h

theorem length_queuePublic (r : RangeRuntimeState) (event : GameEvent)
    (h : output.length ≤ capacity) :
    (r.queuePublic event output capacity).2.1.length ≤ capacity := by
  unfold RangeRuntimeState.queuePublic
  dsimp only
  split_ifs with hd
  · exact length_drainLoop _ _ h
  refine length_drainLoop _ _ ?_
  simp only [Bool.or_eq_true, decide_eq_true_eq, not_or, Nat.not_le] at hd
  rw [List.length_append]
  exact hd.1

theorem limits_drainLoop (capacity : ℕ) : ∀ (l : List CompletedEvent) (r : RangeRuntimeState)
    (output : List GameEvent),
      (RangeRuntimeState.drainLoop capacity l r output).1.maxBufferedMessages = r.maxBufferedMessages ∧
        (RangeRuntimeState.drainLoop capacity l r output).1.maxBufferedBytes = r.maxBufferedBytes
  | [], _, _ => ⟨rfl, rfl⟩
  | c :: rest, r, output => by
    unfold RangeRuntimeState.drainLoop
    split_ifs
    · obtain ⟨hm, hb⟩ := limits_drainLoop capacity rest (r.releaseCompleted c)
        (output ++ [c.event])
      have hr : (r.releaseCompleted c).maxBufferedMessages = r.maxBufferedMessages ∧
          (r.releaseCompleted c).maxBufferedBytes = r.maxBufferedBytes := by
        unfold RangeRuntimeState.releaseCompleted
        split <;> exact ⟨rfl, rfl⟩
      exact ⟨hm.trans hr.1, hb.trans hr.2⟩
    · exact ⟨rfl, rfl⟩

section Staging

variable {maxMessages maxBytes slots bytes : ℕ} {r : RangeRuntimeState}

theorem limited_mono (h : Limited maxMessages maxBytes slots bytes r) (hs : slots' ≤ slots)
    (hb : bytes' ≤ bytes) : Limited maxMessages maxBytes slots' bytes' r :=
  ⟨{ h.room with
      slots := (Nat.add_le_add_right hs _).trans h.room.slots
      bytes := (Nat.add_le_add_right hb _).trans h.room.bytes }, h.messages, h.bytes⟩

theorem limited_drain (h : Limited maxMessages maxBytes slots bytes r) (output : List GameEvent)
    (capacity : ℕ) : Limited maxMessages maxBytes slots bytes (r.drainCompleted output capacity).1 := by
  obtain ⟨hm, hb⟩ := limits_drainLoop capacity r.completed r output
  exact ⟨(h.room.drain output capacity).2, hm.trans h.messages, hb.trans h.bytes⟩

theorem limited_queue
    (h : Limited maxMessages maxBytes (slots + 1) (bytes + event.payloadBytes) r)
    (output : List GameEvent) (capacity : ℕ) :
    Limited maxMessages maxBytes slots bytes (r.queuePublic event output capacity).1 := by
  refine ⟨(h.room.queue output capacity).2, ?_, ?_⟩
  all_goals
    unfold RangeRuntimeState.queuePublic
    dsimp only
    split_ifs
  · exact (limits_drainLoop _ _ _ _).1.trans h.messages
  · exact (limits_drainLoop _ _ _ _).1.trans h.messages
  · exact (limits_drainLoop _ _ _ _).2.trans h.bytes
  · exact (limits_drainLoop _ _ _ _).2.trans h.bytes

theorem limited_taken (h : Limited maxMessages maxBytes 0 0 r) (hs : slots ≤ r.publicCapacity.1)
    (hb : bytes ≤ r.publicCapacity.2) : Limited maxMessages maxBytes slots bytes r := by
  obtain ⟨hm, hp⟩ := h.room.maxPublic
  refine ⟨{ h.room with slots := ?_, bytes := ?_ }, h.messages, h.bytes⟩
  · exact Nat.add_le_of_le_sub hm hs
  · exact Nat.add_le_of_le_sub hp hb

end Staging

theorem length_fitting (bytes : ℕ) : ∀ (capacity : ℕ) (l : List Core.Event),
    (NetworkRuntime.fitting bytes capacity l).length ≤ capacity ∧
      weight size (NetworkRuntime.fitting bytes capacity l) ≤ bytes := by
  intro capacity
  induction capacity generalizing bytes with
  | zero => exact fun l => ⟨Nat.le_refl _, Nat.zero_le _⟩
  | succ capacity ih =>
    intro l
    rcases l with - | ⟨event, l⟩
    · exact ⟨Nat.zero_le _, Nat.zero_le _⟩
    unfold NetworkRuntime.fitting
    split_ifs with hf
    · obtain ⟨hl, hwe⟩ := ih (bytes - event.data.length) l
      refine ⟨Nat.succ_le_succ hl, ?_⟩
      rw [weight_cons]
      unfold size at hwe ⊢
      omega
    · exact ⟨Nat.zero_le _, Nat.zero_le _⟩

/-! ### One step of a poll -/

section Steps

variable {maxMessages maxBytes : ℕ} {g : GameRuntime} {p : Poll}

section

variable (h : Staged maxMessages maxBytes g)
include h

theorem Staged.of_range (hpo : g'.poll = g.poll)
    (hr : ∀ {slots bytes}, Limited maxMessages maxBytes slots bytes g.range →
      Limited maxMessages maxBytes slots bytes g'.range) : Staged maxMessages maxBytes g' := by
  have hb : batch g' = batch g := by
    unfold batch
    rw [hpo]
  refine ⟨?_, fun p hp => h.output p (hpo ▸ hp)⟩
  rw [hb]
  exact hr h.room

theorem Staged.turn (hp : g.poll = some p) (hb : p'.batch = p.batch) (ho : p'.output = p.output)
    (hc : p'.capacity = p.capacity) : Staged maxMessages maxBytes { g with poll := some p' } := by
  have hr := h.room
  unfold batch at hr
  rw [hp] at hr
  refine ⟨?_, ?_⟩
  · change Limited maxMessages maxBytes p'.batch.length (weight size p'.batch) g.range
    rw [hb]
    exact hr
  · rintro _ ⟨⟩
    rw [ho, hc]
    exact h.output p hp

theorem Staged.fetch (hp : g.poll = some p) (he : p.batch = []) (capacity : ℕ)
    (hb : p'.batch = (g.pollNetworkWithBudget capacity).2) (ho : p'.output = p.output)
    (hc : p'.capacity = p.capacity) :
    Staged maxMessages maxBytes { (g.pollNetworkWithBudget capacity).1 with poll := some p' } := by
  have hr := h.room
  unfold batch at hr
  rw [hp] at hr
  change Limited maxMessages maxBytes p.batch.length (weight size p.batch) g.range at hr
  rw [he] at hr
  obtain ⟨hl, hwe⟩ := length_fitting g.range.publicCapacity.2
    (min capacity g.range.publicCapacity.1) g.network.shared.events
  refine ⟨?_, ?_⟩
  · change Limited maxMessages maxBytes p'.batch.length (weight size p'.batch) g.range
    rw [hb]
    exact limited_taken hr (hl.trans (Nat.min_le_right _ _)) hwe
  · rintro _ ⟨⟩
    rw [ho, hc]
    exact h.output p hp

theorem Staged.ended (output : List GameEvent) : Staged maxMessages maxBytes (g.endPoll output) :=
  ⟨limited_mono h.room (Nat.zero_le _) (Nat.zero_le _), nofun⟩

end

theorem fresh_of_request (hh : Heralded g) (hp : g.poll = some p) (hb : p.batch = event :: rest)
    (ht : event.eventType = .authRequest) :
    (popped g p rest).range.sessions.lookup event.session = none := by
  refine hh.unknown _ (.inr ⟨event, ?_, rfl, ht⟩)
  rw [pipeline_popped hp hb]
  exact List.mem_cons_self

theorem Staged.resolved (env : Env) (h : Staged maxMessages maxBytes g) (hh : Heralded g)
    (hp : g.poll = some p) (hb : p.batch = event :: rest) :
    Limited maxMessages maxBytes (rest.length + 1) (weight size rest + event.data.length) (resolve
      event (convertEvent env (popped g p rest) event)).1.range := by
  have hr := h.room
  unfold batch at hr
  rw [hp] at hr
  change Limited maxMessages maxBytes p.batch.length (weight size p.batch) g.range at hr
  rw [hb, weight_cons, Nat.add_comm] at hr
  have hc := (limited_keeps maxMessages maxBytes _ _).convertEvent
    (g := popped g p rest) env (fresh_of_request hh hp hb) hr
  unfold resolve
  split
  · exact hc
  · split_ifs <;> exact hc

theorem Staged.advance (env : Env) (h : Staged maxMessages maxBytes g) (hh : Heralded g)
    (hs : Short g.resume.tickets) (hp : g.poll = some p) :
    Staged maxMessages maxBytes (GameRuntime.advance env g p) := by
  have hm : Staged maxMessages maxBytes (maintain env g) ∧
      (maintain env g).poll = some p := by
    have hpo := (poll_calls (some p)).toMaintained.maintain env hp
    exact ⟨h.of_range (hpo.trans hp.symm) fun hr => (limited_keeps _ _ _ _).maintain env hr,
      hpo⟩
  unfold GameRuntime.advance
  split
  · rename_i event rest hb
    have hre := h.resolved env hh hp hb
    have hrep := reports_resolve env (popped g p rest) event
    have ho := h.output p hp
    change Staged maxMessages maxBytes
      { (GameRuntime.convertNext env (popped g p rest) { p with batch := rest } event).1 with
        poll := some (GameRuntime.convertNext env (popped g p rest) { p with batch := rest } event).2 }
    unfold GameRuntime.convertNext
    generalize resolve event (convertEvent env (popped g p rest) event) = result
      at hre hrep ⊢
    obtain ⟨g', outcome⟩ := result
    rcases outcome with - | e
    · refine ⟨?_, ?_⟩
      · exact limited_drain (limited_mono hre (Nat.le_succ _) (Nat.le_add_right _ _)) _ _
      · rintro _ ⟨⟩
        exact length_drainLoop _ _ ho
    · have hsi := (hrep e rfl).size hs
      refine ⟨?_, ?_⟩
      · exact limited_drain (limited_queue
          (limited_mono hre (Nat.le_refl _) (Nat.add_le_add_left hsi _)) _ _) _ _
      · rintro _ ⟨⟩
        exact length_drainLoop _ _ (length_queuePublic _ _ ho)
  · rename_i hb
    split
    · have hr := h.room
      unfold batch at hr
      rw [hp] at hr
      refine ⟨limited_drain hr _ _, ?_⟩
      rintro _ ⟨⟩
      exact length_drainLoop _ _ (h.output p hp)
    · unfold drainTurn
      split_ifs
      · exact h.turn hp rfl rfl rfl
      dsimp only
      split_ifs with hn
      · exact h.fetch hp hb _ (hb.trans hn.symm) rfl rfl
      · exact h.fetch hp hb _ rfl rfl rfl
    · split_ifs
      · exact hm.1.ended _
      · exact hm.1.ended _
      · exact hm.1.turn hm.2 rfl rfl rfl
      · exact h.turn hp rfl rfl rfl
    · exact hm.1.turn hm.2 rfl rfl rfl
    · have hrea : ∀ {g}, Staged maxMessages maxBytes g →
          Staged maxMessages maxBytes g.reapClosedEndpoints :=
        fun h => h.of_range ((poll_calls _).toMaintained.reap rfl)
          fun hr => (limited_keeps _ _ _ _).reapClosedEndpoints hr
      exact hrea (h.fetch hp hb _ rfl rfl rfl)
    · split_ifs
      · exact hm.1.ended _
      · exact hm.1.turn hm.2 rfl rfl rfl

theorem Staged.step (input : Runtime.Input) (h : Staged maxMessages maxBytes g)
    (hh : Heralded g) (hs : Short g.resume.tickets) :
    Staged maxMessages maxBytes (GameRuntime.step g input) := by
  cases input with
  | poll capacity =>
    simp only [GameRuntime.step]
    split_ifs with hpo
    · exact h
    have hn := Option.not_isSome_iff_eq_none.mp hpo
    have hr := h.room
    unfold batch at hr
    rw [hn] at hr
    refine ⟨(limited_keeps _ _ _ _).reapClosedEndpoints hr, ?_⟩
    rintro _ ⟨⟩
    exact Nat.zero_le _
  | advance env =>
    simp only [GameRuntime.step]
    split
    · exact h
    · rename_i p hp
      exact h.advance env hh hs hp
  | _ =>
    exact h.of_range ((poll_calls _).step rfl trivial rfl)
      fun hr => (limited_keeps _ _ _ _).call rfl hr

end Steps

/-! ### Whole runs -/

variable {g : GameRuntime}

/-- **In every run what was taken from the transport queue fits the backlog**, whose limits are
those of the transport queue. -/
theorem staged_reach (h : machine.Reach anything g) :
    0 < g.network.shared.config.eventQueueCapacity ∧
      Staged g.network.shared.config.eventQueueCapacity g.network.shared.config.maxEventBytes g := by
  induction h with
  | start hi =>
    obtain ⟨config, clockRoom, ttl, maxResumeTickets, sign, hb⟩ := hi
    have hp : 0 < config.eventQueueCapacity := by
      unfold GameRuntime.build at hb
      split_ifs at hb
      split at hb
      · cases hb
      · cases hb
      · cases hb
      rename_i hv
      unfold Transport.Config.RuntimeConfig.validate at hv
      split_ifs at hv with hc
      push Not at hc
      omega
    rw [build_spec hb]
    exact ⟨hp, ⟨⟨room_initial _ _, rfl, rfl⟩, nofun⟩⟩
  | @next g input h _ ih =>
    have hc := (descends_step g input).config
    change 0 < (GameRuntime.step g input).network.shared.config.eventQueueCapacity ∧
      Staged (GameRuntime.step g input).network.shared.config.eventQueueCapacity
        (GameRuntime.step g input).network.shared.config.maxEventBytes (GameRuntime.step g input)
    rw [hc]
    exact ⟨ih.1, ih.2.step input (heralded_reach h) (short_reach h)⟩

/-- The transport queue of a runtime, in a state it can reach under any use. -/
structure Backs (w : QueueRuns.World) (g : GameRuntime) : Prop where
  reach : QueueRuns.machine.Reach (fun _ _ => True) w
  capacity : w.queue.capacity = g.network.shared.config.eventQueueCapacity
  byteCapacity : w.queue.byteCapacity = g.network.shared.config.maxEventBytes

theorem take_eq_fitting (q : EventQueue) (capacity bytes : ℕ) :
    (q.take capacity bytes).2 = NetworkRuntime.fitting bytes capacity q.queue := by
  change q.queue.take (fitting size bytes (q.queue.take capacity)) = _
  generalize q.queue = l
  induction capacity generalizing bytes l with
  | zero => rfl
  | succ capacity ih =>
    rcases l with - | ⟨event, l⟩
    · rfl
    rw [List.take_succ_cons]
    unfold fitting NetworkRuntime.fitting size
    by_cases hf : event.data.length ≤ bytes
    · rw [if_pos hf, if_neg (Nat.not_lt.mpr hf), List.take_succ_cons]
      exact congrArg (event :: ·) (ih _ _)
    · rw [if_neg hf, if_pos (Nat.not_le.mp hf)]
      rfl

/-- **With nothing public in the backlog the event in front fits.** -/
theorem head_fits (h : machine.Reach anything g) (hw : Backs w g)
    (hqu : w.queue.queue = head :: rest) (he : ordinary g.range.completed = [])
    (hca : 0 < capacity) :
    ∃ more, (w.queue.take (min capacity g.range.publicCapacity.1) g.range.publicCapacity.2).2 =
      head :: more := by
  obtain ⟨hp, hs⟩ := staged_reach h
  have hm : g.range.publicMessages = 0 := by
    rw [hs.room.room.publicMessages, he]
    rfl
  have hb : g.range.publicBytes = 0 := by
    rw [hs.room.room.publicBytes]
    unfold ordinaryBytes
    rw [he]
    rfl
  have hc : g.range.publicCapacity = (g.network.shared.config.eventQueueCapacity,
      g.network.shared.config.maxEventBytes) := by
    unfold RangeRuntimeState.publicCapacity
    rw [hm, hb, hs.room.messages, hs.room.bytes]
    rfl
  have hq := (QueueRuns.consistent_reach hw.reach).valid.bytes
  have hwi := (QueueRuns.consistent_reach hw.reach).valid.within
  rw [hqu, weight_cons] at hq
  rw [hw.byteCapacity] at hwi
  have hf : head.data.length ≤ g.network.shared.config.maxEventBytes := by
    unfold size at hq
    omega
  rw [take_eq_fitting, hqu, hc]
  obtain ⟨n, hn⟩ : ∃ n, min capacity g.network.shared.config.eventQueueCapacity = n + 1 :=
    Nat.exists_eq_succ_of_ne_zero (by omega)
  rw [hn]
  unfold NetworkRuntime.fitting
  rw [if_pos hf]
  exact ⟨_, rfl⟩

theorem ordinary_keeps (l : List CompletedEvent) :
    RangeKeeps fun r => (ordinary r.completed).Sublist l where
  endpoints _ _ h := h
  registered _ h _ := h
  edited {r} session state h := by
    unfold edited
    split <;> exact h
  rescheduled _ h := h
  buffered {r} message h := by
    unfold RangeRuntimeState.bufferMessage
    split
    · exact h
    · dsimp only
      split_ifs <;> exact h
  completed {r} session h := by
    unfold RangeRuntimeState.completeBuffered
    split
    · exact h
    rename_i state _
    have hr : ordinary (state.buffered.map fun message =>
        (⟨.message message, some message.payload.length⟩ : CompletedEvent)) = [] := by
      refine List.filter_eq_nil_iff.mpr fun c hc => ?_
      obtain ⟨m, -, rfl⟩ := List.mem_map.mp hc
      exact Bool.false_ne_true
    unfold ordinary at h hr ⊢
    rw [List.filter_append, hr, List.append_nil]
    exact h
  forgotten {r} session h := by
    have hf : (r.forgetSession session).completed =
        r.completed.filter fun c => !c.event.belongsTo session := by
      unfold RangeRuntimeState.forgetSession RangeRuntimeState.releaseSession
      split <;> rfl
    rw [hf]
    exact (List.filter_sublist.filter _).trans h
  cleared _ := List.nil_sublist _

theorem returned_kept (returned : List GameEvent) :
    Maintained fun g => g.returned = returned where
  shed h hs := hs.returned.trans h
  sent h _ hs := by
    rw [hs.core]
    exact h
  rescheduled _ h := h
  repeated h _ _ hs := by
    rw [hs.core]
    exact h

theorem returned_converts (h : Converts env g event g' r) : g'.returned = g.returned := by
  have hpu : ∀ {g₁ : GameRuntime} {endpoint session : Handle} {old : Option Handle}
      {serverResume : Bool}, Publishes g₁ endpoint session old serverResume g' r →
      g'.returned = g₁.returned := by
    intro g₁ endpoint session old serverResume hp
    cases hp with
    | lost hsh => exact hsh.returned
    | broken => rfl
    | announced _ _ hsh => exact hsh.returned
  have hc : ∀ {kind : Envelope.ControlKind} {payload : Bytes} {g₁ g₂ : GameRuntime}
      {sent : Result Unit}, Sent kind event.session payload g₁ g₂ sent → g₂.returned = g₁.returned := by
    intro kind payload g₁ g₂ sent hs
    rw [hs.core]
  cases h with
  | shed hsh => exact hsh.returned
  | rejected | registered | unexpected => rfl
  | opened _ _ _ _ _ hs => exact (hc hs).trans rfl
  | joined => rfl
  | answered _ _ hs => exact hc hs
  | selected _ _ hs => exact (hc hs).trans rfl
  | confirmed _ _ hs => exact hc hs
  | serverCompleted _ _ _ _ _ hs hp =>
    have hco := hc hs
    exact (hpu hp).trans hco
  | clientCompleted _ _ _ _ _ hp => exact (hpu hp).trans rfl
  | buffered | passed => rfl

theorem returned_advance (env : Env) (g : GameRuntime) (p : Poll) : ∃ output,
    (GameRuntime.advance env g p).returned = g.returned ++ output ∧
      (output = [] ∨ output = p.output) := by
  have hs : ∀ {g' : GameRuntime}, g'.returned = g.returned →
      ∃ output, g'.returned = g.returned ++ output ∧ (output = [] ∨ output = p.output) :=
    fun hg => ⟨[], by rw [hg, List.append_nil], .inl rfl⟩
  have hm : (maintain env g).returned = g.returned := (returned_kept _).maintain env rfl
  have he : ∀ output, output = [] ∨ output = p.output → ∃ l,
      ((maintain env g).endPoll output).returned = g.returned ++ l ∧ (l = [] ∨ l = p.output) :=
    fun output ho => ⟨output, congrArg (· ++ output) hm, ho⟩
  unfold GameRuntime.advance
  split
  · rename_i event rest _
    refine @hs { (GameRuntime.convertNext env (popped g p rest) { p with batch := rest }
      event).1 with poll := _ } ?_
    have hc := returned_converts (converts_convertEvent env (popped g p rest) event)
    change (resolve event (convertEvent env (popped g p rest) event)).1.returned = g.returned
    unfold resolve
    split
    · exact hc
    · split_ifs <;> exact hc
  · split
    · exact hs rfl
    · unfold drainTurn
      split_ifs
      · exact hs rfl
      · dsimp only
        split_ifs <;> exact hs rfl
    · split_ifs
      · exact he _ (.inr rfl)
      · exact he _ (.inl rfl)
      · exact hs hm
      · exact hs rfl
    · exact hs hm
    · exact hs ((returned_kept _).reap rfl)
    split_ifs
    · exact he _ (.inr rfl)
    · exact hs hm

/-- What becomes public of an event that was taken is no larger, is accepted by the checks of
`queue_public`, and is in the stream. -/
structure Retains (env : Env) (g : GameRuntime) (p : Poll) (event : Core.Event)
    (rest : List Core.Event) (e : GameEvent) : Prop where
  size : e.payloadBytes ≤ event.data.length
  accepted : (queuePublic? (resolve event (convertEvent env (popped g p rest) event)).1.range e
    p.output p.capacity).isSome
  staged : e ∈ stream (GameRuntime.step g (.advance env))

theorem retains_of_reach (h : machine.Reach anything g) (hp : g.poll = some p)
    (hb : p.batch = event :: rest)
    (he : (resolve event (convertEvent env (popped g p rest) event)).2 = some e) :
    Retains env g p event rest e := by
  have hs := (reports_resolve env (popped g p rest) event e he).size
    (short_reach (g := g) h)
  have hr := (staged_reach h).2.resolved env (heralded_reach h) hp hb
  refine ⟨hs, ?_, ?_⟩
  · have hl := limited_mono hr (Nat.le_refl _) (Nat.add_le_add_left hs _)
    rw [(hl.room.queue p.output p.capacity).1]
    rfl
  · obtain ⟨front, back, -, hst, -⟩ := (stages_advance env hp hb).added e he
    rw [hst]
    exact List.mem_append_right _ List.mem_cons_self

/-- **Polls stay within the staging budget and lose nothing.** In every run: the counters of the
backlog are exact and there is room for all that was taken from the transport queue; the conversion
of an event takes it from the batch, adds no unreserved event to the backlog but the one it reports,
and that one is retained; a poll returns no more than its capacity; and with nothing public in the
backlog a poll takes at least the event in front of the transport queue. -/
theorem poll_staging_bounded {g : GameRuntime} (h : machine.Reach anything g) :
    Room (batch g).length (weight size (batch g)) g.range ∧
    (∀ env p event rest, g.poll = some p → p.batch = event :: rest →
      batch (GameRuntime.step g (.advance env)) = rest ∧
      (ordinary (resolve event (convertEvent env (popped g p rest) event)).1.range.completed).Sublist
        (ordinary g.range.completed) ∧
      ∀ e, (resolve event (convertEvent env (popped g p rest) event)).2 = some e →
        Retains env g p event rest e) ∧
    (∀ env p, g.poll = some p → ∃ output,
      (GameRuntime.step g (.advance env)).returned = g.returned ++ output ∧
        output.length ≤ p.capacity) ∧
    ∀ w head rest capacity, Backs w g → w.queue.queue = head :: rest →
      ordinary g.range.completed = [] → 0 < capacity → ∃ more,
        (w.queue.take (min capacity g.range.publicCapacity.1) g.range.publicCapacity.2).2 =
          head :: more := by
  obtain ⟨-, hs⟩ := staged_reach h
  refine ⟨hs.room.room, fun env p event rest hp hb => ⟨?_, ?_, fun e he =>
    retains_of_reach h hp hb he⟩, fun env p hp => ?_, fun w head rest capacity hw hq hem
    hca => head_fits h hw hq hem hca⟩
  · simp only [GameRuntime.step, hp, GameRuntime.advance, hb]
    rfl
  · have hc := (ordinary_keeps (ordinary g.range.completed)).convertEvent
      (g := popped g p rest) env (fresh_of_request (heralded_reach h) hp hb) (.refl _)
    unfold resolve
    split
    · exact hc
    · split_ifs <;> exact hc
  · simp only [GameRuntime.step, hp]
    obtain ⟨output, hr, hsh⟩ := returned_advance env g p
    exact ⟨output, hr, hsh.elim (fun hn => hn ▸ Nat.zero_le _)
      fun ha => ha ▸ hs.output p hp⟩

def midPoll : GameRuntime :=
  machine.run newServer (readied ++ [receiving 1 42, .poll 1, .advance calm, .advance calm])

def filled : QueueRuns.World :=
  QueueRuns.machine.run (.start ⟨4096, 64 * 1024 * 1024, 0, []⟩)
    [.tryPush ⟨.writable, 1, 1, 0, .ok, [1, 2, 3], false⟩]

theorem poll_staging_bounded_message :
    (batch midPoll).length = 1 ∧
      Room (batch midPoll).length (weight size (batch midPoll)) midPoll.range ∧
      ∃ more, (filled.queue.take (min 1 midPoll.range.publicCapacity.1)
        midPoll.range.publicCapacity.2).2 = ⟨.writable, 1, 1, 0, .ok, [1, 2, 3], false⟩ :: more := by
  have hg : machine.Reach anything midPoll := reach_sample _
  have hb : Backs filled midPoll := by
    refine ⟨?_, by decide +kernel, by decide +kernel⟩
    exact .run_free (fun _ _ => trivial) _ (.start ⟨4096, 64 * 1024 * 1024, _, by decide, rfl, rfl⟩)
  obtain ⟨hr, -, -, hh⟩ := poll_staging_bounded hg
  exact ⟨by decide +kernel, hr, hh filled _ [] 1 hb (by decide +kernel) (by decide +kernel)
    Nat.one_pos⟩

end Rnet.Game.PollBudget
