import Rnet.Game.EarlyData

/-! # The order of the stream

A converted event may complete the negotiation of its session, which puts early data behind the
backlog and the readiness in front of it. Apart from what cleanup removes, the events of all other
sessions stay as they are, and in the same order. -/

namespace Rnet.Game.Ordering

open Rnet.Core Lib.BigEndian Lib.FiniteMap
open Envelope (ControlKind envelopeBytes)
open Controls Event RangeState Game.Runtime Game.Runtime.GameRuntime Cleanup
open Conversion Steps Tickets Readiness Announcements Outcomes EarlyData

def foreign (s : Handle) (e : GameEvent) : Bool := (sessionOf e).any (· != s)

def about (s : Handle) (e : GameEvent) : Bool := sessionOf e == some s

/-- **Only events of `s` come**: of the other sessions' events some may go, but none of a session
that is still known. -/
structure Rearranges (s : Handle) (g g' : GameRuntime) : Prop where
  order : ((stream g').filter (foreign s)).Sublist ((stream g).filter (foreign s))
  kept : ∀ t, t ≠ s → (g'.range.sessions.lookup t).isSome →
    (g.range.sessions.lookup t).isSome ∧ (stream g').filter (about t) = (stream g).filter (about t)

theorem sessionOf_of_belongsTo {session : Handle} (h : e.belongsTo session = true) :
    sessionOf e = some session := by
  unfold GameEvent.belongsTo at h
  split at h
  all_goals first
    | exact congrArg some (beq_iff_eq.mp h)
    | cases h

namespace Rearranges

variable {s : Handle} {g g' g'' : GameRuntime}

theorem trans (h : Rearranges s g g') (h' : Rearranges s g' g'') : Rearranges s g g'' where
  order := h'.order.trans h.order
  kept t hn hk := by
    obtain ⟨hk', he'⟩ := h'.kept t hn hk
    obtain ⟨hk, he⟩ := h.kept t hn hk'
    exact ⟨hk, he'.trans he⟩

theorem of_same (hs : stream g' = stream g)
    (hse : ∀ t, t ≠ s → g'.range.sessions.lookup t = g.range.sessions.lookup t) :
    Rearranges s g g' where
  order := by
    rw [hs]
  kept t hn hk := by
    rw [hse t hn] at hk
    exact ⟨hk, by rw [hs]⟩

theorem of_sent {session : Handle} (h : Sent kind session payload g g' r) : Rearranges s g g' := by
  refine .of_same ?_ fun _ _ => by rw [h.range]
  unfold stream
  rw [h.core]

theorem of_setSession (g : GameRuntime) (state : RangeSession) :
    Rearranges s g (g.setSession s state) :=
  .of_same rfl fun _ hn => (lookup_insert_ite _ _ _ _).trans (if_neg hn)

theorem of_added (pre new post : List GameEvent) (hb : stream g = pre ++ post)
    (ha : stream g' = pre ++ new ++ post) (hnew : ∀ e ∈ new, ∀ t ∈ sessionOf e, t = s)
    (hse : ∀ t, t ≠ s → g'.range.sessions.lookup t = g.range.sessions.lookup t) :
    Rearranges s g g' := by
  have hno : ∀ p : GameEvent → Bool, (∀ e, p e = true → ∃ t ∈ sessionOf e, t ≠ s) →
      (stream g').filter p = (stream g).filter p := by
    intro p hp
    have hem : new.filter p = [] := by
      refine List.filter_eq_nil_iff.mpr fun e he hpe => ?_
      obtain ⟨t, ht, hn⟩ := hp e hpe
      exact hn (hnew e he t ht)
    rw [hb, ha, List.filter_append, List.filter_append, List.filter_append, hem,
      List.append_nil]
  refine ⟨?_, fun t hn hk => ⟨?_, hno _ fun e he => ⟨t, beq_iff_eq.mp he, hn⟩⟩⟩
  · rw [hno (foreign s) fun e he => ?_]
    unfold foreign at he
    rcases hs : sessionOf e with - | t
    · rw [hs] at he
      cases he
    · rw [hs, Option.any_some] at he
      exact ⟨t, rfl, bne_iff_ne.mp he⟩
  · rw [hse t hn] at hk
    exact hk

theorem of_sheds (h : Sheds gone g g') : Rearranges s g g' where
  order := by
    rw [stream_sheds h, stream_eq]
    exact (List.Sublist.append_left List.filter_sublist _).filter _
  kept t _ hk := by
    have hs : t ∉ gone := by
      intro hi
      rw [h.sessions t, if_pos hi] at hk
      cases hk
    rw [h.sessions.kept hs] at hk
    refine ⟨hk, ?_⟩
    rw [stream_sheds h, stream_eq, List.filter_append, List.filter_append, List.filter_filter]
    refine congrArg (_ ++ ·) (List.filter_congr fun e _ => ?_)
    by_cases ha : about t e = true
    · have hal : (gone.all fun session => !e.belongsTo session) = true := by
        refine List.all_eq_true.mpr fun session hse => ?_
        rw [Bool.not_eq_true', ← Bool.not_eq_true]
        intro hb
        have hsa := sessionOf_of_belongsTo hb
        rw [beq_iff_eq.mp ha] at hsa
        exact hs (Option.some.inj hsa ▸ hse)
      rw [ha, hal]
      rfl
    · rw [Bool.eq_false_of_not_eq_true ha]
      rfl

theorem of_stages (h : Stages outcome g g')
    (hse : ∀ e, outcome = some e → ∀ t ∈ sessionOf e, t = s) : Rearranges s g g' := by
  have hs : ∀ t, t ≠ s → g'.range.sessions.lookup t = g.range.sessions.lookup t :=
    fun t _ => by rw [h.tables.sessions]
  rcases outcome with - | e
  · exact .of_same (h.silent rfl) hs
  obtain ⟨front, back, hsp, hst, -⟩ := h.added e rfl
  refine .of_added (emitted g ++ front) [e] back ?_ ?_ ?_ hs
  · rw [stream_eq, hsp, List.append_assoc]
  · rw [hst, List.append_assoc _ [e]]
    rfl
  intro e' he'
  rw [List.mem_singleton.mp he']
  exact hse e rfl

end Rearranges

/-! ### Converted events -/

section Conversions

variable {early later : Handle → List GameMessage} {g g' : GameRuntime}

theorem rearranges_completed {session : Handle} (ho : ∀ m ∈ state.buffered, m.session = session)
    (phase : Phase) : Rearranges session g (completedState g session state phase) := by
  refine .of_added (stream g) (state.buffered.map GameEvent.message) []
    (List.append_nil _).symm ?_ ?_ fun t hn => ?_
  · rw [List.append_nil, stream_eq, backlog_completedState, ← List.append_assoc]
    rfl
  · intro e he t ht
    obtain ⟨m, hm, rfl⟩ := List.mem_map.mp he
    cases ht
    exact ho m hm
  · rw [lookup_completedState, if_neg hn]

theorem rearranges_publishes {endpoint session : Handle}
    (hp : Publishes g endpoint session old serverResume g' r) : Rearranges session g g' := by
  cases hp with
  | lost hs => exact .of_sheds hs
  | broken => exact .of_same rfl fun _ _ => rfl
  | announced _ _ hs =>
    have ha : Rearranges session g { g with admission := g.admission.insert session () } :=
      .of_same rfl fun _ _ => rfl
    have hsh := ha.trans (.of_sheds hs)
    exact hsh.trans (.of_same rfl fun _ _ => rfl)

/-- **The conversion of an event leaves the events of other sessions alone.** -/
theorem rearranges_converts (h : Arranged early later (fun _ => False) g)
    (hc : Converts env g event g' r) : Rearranges event.session g g' := by
  have ho : ∀ {state}, g.range.sessions.lookup event.session = some state →
      state.phase.isReady = false → ∀ m ∈ state.buffered, m.session = event.session :=
    fun hst hph m hm =>
      h.own _ m ((h.waiting _ _ id hst hph).arrived.subset hm)
  cases hc with
  | shed hsh => exact .of_sheds hsh
  | rejected => exact .of_same rfl fun _ _ => rfl
  | registered =>
    exact (Rearranges.of_setSession g _).trans (.of_same rfl fun _ _ => rfl)
  | unexpected => exact .of_same rfl fun _ _ => rfl
  | @opened transport _ _ _ _ _ _ _ _ hs =>
    have ht : Rearranges event.session g (withTrackers g event transport) :=
      .of_same rfl fun _ _ => rfl
    exact (ht.trans (.of_setSession _ _)).trans (.of_sent hs)
  | @joined transport =>
    have ht : Rearranges event.session g (withTrackers g event transport) :=
      .of_same rfl fun _ _ => rfl
    exact (ht.trans (.of_setSession _ _)).trans (.of_same rfl fun _ _ => rfl)
  | answered _ _ hs => exact .of_sent hs
  | selected _ _ hs => exact (Rearranges.of_setSession g _).trans (.of_sent hs)
  | confirmed _ _ hs => exact .of_sent hs
  | serverCompleted ha hph _ _ _ hs hp =>
    have hme := ho ha.found (by rw [hph]; rfl)
    exact (Rearranges.of_sent hs).trans
      ((rearranges_completed hme .serverReady).trans (rearranges_publishes hp))
  | clientCompleted ha hph _ _ _ hp =>
    have hme := ho ha.found (by rw [hph]; rfl)
    exact (rearranges_completed hme .clientReady).trans (rearranges_publishes hp)
  | buffered =>
    exact .of_same rfl fun t hn => (lookup_insert_ite _ _ _ _).trans (if_neg hn)
  | passed => exact .of_same rfl fun _ _ => rfl

theorem rearranges_step {w : Observed} (hw : machine.Reach (fun _ _ => True) w)
    (hc : converting w.runtime (.advance env) = some event) :
    Rearranges event.session w.runtime (GameRuntime.step w.runtime (.advance env)) := by
  obtain ⟨p, hp, hh⟩ := Option.bind_eq_some_iff.mp hc
  obtain ⟨rest, hb⟩ := List.head?_eq_some_iff.mp hh
  have hs : stream (popped w.runtime p rest) = stream w.runtime := by
    unfold stream
    rw [hp]
    rfl
  have ha : Arranged w.early w.later (fun _ => False) (popped w.runtime p rest) :=
    (arranged_reach hw).frame (advances_popped hp hb) hs (.refl _)
  have hpo : Rearranges event.session w.runtime (popped w.runtime p rest) :=
    .of_same hs fun _ _ => rfl
  have hco := hpo.trans
    (rearranges_converts ha (converts_convertEvent env (popped w.runtime p rest) event))
  have hr : Rearranges event.session
      (convertEvent env (popped w.runtime p rest) event).1
      (resolve event (convertEvent env (popped w.runtime p rest) event)).1 := by
    unfold resolve
    split
    · exact .of_same rfl fun _ _ => rfl
    split_ifs
    · exact .of_sheds (sheds_closeRoute _ _ _)
    · exact .of_same rfl fun _ _ => rfl
  refine (hco.trans hr).trans (.of_stages (stages_advance env hp hb) fun e he => ?_)
  exact (reports_resolve env (popped w.runtime p rest) event e he).session

end Conversions

/-! ### Nothing is held back -/

/-- A poll that looked at the backlog left nothing there, or has all it may return. -/
def Drained (g : GameRuntime) : Prop :=
  ∀ p, g.poll = some p → p.stage ≠ .flushing →
    g.range.backlog = [] ∨ p.capacity ≤ p.output.length

theorem drained_drainLoop (capacity : ℕ) (l : List CompletedEvent) (r : RangeRuntimeState)
    (output : List GameEvent) :
    (RangeRuntimeState.drainLoop capacity l r output).1.backlog = [] ∨
      capacity ≤ (RangeRuntimeState.drainLoop capacity l r output).2.length := by
  induction l generalizing r output with
  | nil => exact .inl rfl
  | cons c rest ih =>
    unfold RangeRuntimeState.drainLoop
    split_ifs with hr
    · exact ih _ _
    · exact .inr (Nat.not_lt.mp hr)

theorem Drained.of_same (h : Drained g) (hpo : g'.poll = g.poll)
    (hb : g.range.backlog = [] → g'.range.backlog = []) : Drained g' := by
  intro p hp hs
  rw [hpo] at hp
  exact (h p hp hs).imp_left hb

theorem drained_calls : CallKeeps anything Drained where
  shed h hs := h.of_same hs.poll fun he => by
    rw [backlog_sheds hs, he]
    rfl
  sent h _ hs := h.of_same hs.poll fun he => by
    rw [hs.range]
    exact he
  rescheduled _ h := h.of_same rfl id
  repeated h _ _ hs := h.of_same hs.poll fun he => by
    rw [hs.range]
    exact he
  listened h _ _ := h.of_same rfl id
  connected h _ _ := h.of_same rfl id
  decided h _ := h.of_same rfl id
  issued {g env draws session identity g' r} h _ hi := by
    cases hi with
    | refused => exact h.of_same rfl id
    | sent _ _ _ _ _ hse =>
      refine h.of_same hse.poll fun he => ?_
      rw [hse.range]
      exact he
    | undone => exact h.of_same rfl id
  scheduled h _ _ := h.of_same rfl id
  latest h _ _ := h.of_same rfl id
  flushed h hf := by
    refine h.of_same ?_ ?_ <;> rw [hf.core]
    exact id
  ended h _ := h.of_same rfl id
  stopped h := h.of_same rfl fun _ => rfl
  accepted h _ := h.of_same rfl id
  joined h _ := h.of_same rfl id
  established h _ := h.of_same rfl id
  delivered h _ := h.of_same rfl id
  announced h := h.of_same rfl id
  lost h _ := h.of_same rfl id

theorem Drained.turn (h : Drained g) (hp : g.poll = some p) (hs : p.stage ≠ .flushing)
    (ho : p'.output = p.output) (hc : p'.capacity = p.capacity) :
    Drained { g with poll := some p' } := by
  rintro _ ⟨⟩ -
  rw [ho, hc]
  exact h p hp hs

theorem drained_advance (h : Drained g) (hp : g.poll = some p) (env : Env) :
    Drained (GameRuntime.advance env g p) := by
  have hm : Drained (maintain env g) ∧ (maintain env g).poll = some p := by
    refine ⟨drained_calls.toMaintained.maintain env h, ?_⟩
    have hpo : Maintained fun g' => g'.poll = some p :=
      { shed := fun h hs => hs.poll.trans h
        sent := fun h _ hs => hs.poll.trans h
        rescheduled := fun _ h => h
        repeated := fun h _ _ hs => hs.poll.trans h }
    exact hpo.maintain env hp
  have hno : ∀ {g}, g.poll = none → Drained g := by
    intro g hpo p hp
    rw [hpo] at hp
    cases hp
  unfold GameRuntime.advance
  split
  · rintro _ ⟨⟩ -
    exact drained_drainLoop _ _ _ _
  split
  · rintro _ ⟨⟩ -
    exact drained_drainLoop _ _ _ _
  · rename_i hst
    have hn : p.stage ≠ .flushing := fun he => nomatch hst.symm.trans he
    unfold drainTurn
    split_ifs
    · exact h.turn hp hn rfl rfl
    dsimp only
    split_ifs
    · exact Drained.turn (g := (g.pollNetworkWithBudget (batchSize p)).1) h hp hn rfl rfl
    · exact Drained.turn (g := (g.pollNetworkWithBudget (batchSize p)).1) h hp hn rfl rfl
  · rename_i hst
    have hn : p.stage ≠ .flushing := fun he => nomatch hst.symm.trans he
    split_ifs
    · exact hno rfl
    · exact hno rfl
    · exact hm.1.turn hm.2 hn rfl rfl
    · exact h.turn hp hn rfl rfl
  · rename_i hst
    have hn : p.stage ≠ .flushing := fun he => nomatch hst.symm.trans he
    exact hm.1.turn hm.2 hn rfl rfl
  · rename_i hst
    have hn : p.stage ≠ .flushing := fun he => nomatch hst.symm.trans he
    refine drained_calls.toMaintained.reap ?_
    exact Drained.turn (g := (g.pollNetworkWithBudget _).1) h hp hn rfl rfl
  · rename_i hst
    have hn : p.stage ≠ .flushing := fun he => nomatch hst.symm.trans he
    split_ifs
    · exact hno rfl
    · exact hm.1.turn hm.2 hn rfl rfl

/-- **In every run a poll that ends left nothing back that it could have returned.** -/
theorem drained_reach (h : GameRuntime.machine.Reach anything g) : Drained g := by
  refine h.invariant ?_ fun g input hg hgu => ?_
  · rintro g ⟨config, clockRoom, ttl, maxResumeTickets, sign, hb⟩
    rw [build_spec hb]
    rintro _ ⟨⟩
  · cases input with
    | poll capacity =>
      simp only [GameRuntime.machine, GameRuntime.step]
      split_ifs with hpo
      · exact hg
      · rintro _ ⟨⟩ hs
        exact absurd rfl hs
    | advance env =>
      simp only [GameRuntime.machine, GameRuntime.step]
      split
      · exact hg
      · rename_i p hp
        exact drained_advance hg hp env
    | _ => exact drained_calls.step hg hgu rfl

/-! ### The stream of a run -/

/-- **Early data is returned in order.** In every run: the share of a ready session in the stream is
its readiness, then what arrived before it, then what arrived after it, each once and as it arrived;
the conversion of an event leaves the events of all other sessions in their order, and those of
known sessions complete; and polls return the stream as far as their capacity allows. -/
theorem early_data_in_order {w : Observed} (hw : machine.Reach (fun _ _ => True) w) :
    (∀ s state, w.runtime.range.sessions.lookup s = some state → state.phase.isReady = true →
      ∃ e, e.readies = some s ∧
        part s (stream w.runtime) = e :: (w.early s ++ w.later s).map GameEvent.message) ∧
    (∀ env event, converting w.runtime (.advance env) = some event →
      Rearranges event.session w.runtime (GameRuntime.step w.runtime (.advance env))) ∧
    Drained w.runtime :=
  ⟨fun s state hs hr => (arranged_reach hw).ready s state id hs hr,
    fun _ _ hc => rearranges_step hw hc, drained_reach (reach_runtime hw)⟩

def quietServer : Observed := ⟨newServer, fun _ => [], fun _ => []⟩

def trickling : List Input := .poll 1 :: List.replicate 8 (.advance calm)

/-- Two sessions negotiate and receive data early; the first one becomes ready and receives more,
while the application takes one event at a time. -/
def interleaved : List Input :=
  .listen .tcp sampleProtocol (.ok ()) :: joining 1 (sampleNonce 1) none ++
    joining 2 (sampleNonce 2) none ++
    receiving 1 42 :: receiving 2 43 :: receiving 1 44 :: trickling ++
    .deliver 1 (.gameControl (envelopeBytes ControlKind.protocol.toByte 0 0 0 none
      (selectionPayload ⟨Controls.ack, sampleNonce 1, 7, 2, 1⟩))) true :: receiving 1 45 :: trickling ++
    trickling

theorem early_data_in_order_interleaved : ∃ e, e.readies = some 1 ∧
    part 1 (stream (machine.run quietServer interleaved).runtime) =
      [e, .message (sampleMessage 1 42), .message (sampleMessage 1 44),
        .message (sampleMessage 1 45)] := by
  have hw : machine.Reach (fun _ _ => True) (machine.run quietServer interleaved) :=
    .run_free (fun _ _ => trivial) _ (.start ⟨init_newServer, rfl, rfl⟩)
  have hr : ((machine.run quietServer interleaved).runtime.range.sessions.lookup 1).any
      (fun state => state.phase.isReady) = true := by decide +kernel
  have ha : (machine.run quietServer interleaved).early 1 =
      [sampleMessage 1 42, sampleMessage 1 44] ∧
      (machine.run quietServer interleaved).later 1 = [sampleMessage 1 45] := by decide +kernel
  rcases hs : (machine.run quietServer interleaved).runtime.range.sessions.lookup 1 with - | state
  · rw [hs] at hr
    cases hr
  rw [hs] at hr
  have hsh := (early_data_in_order hw).1 1 state hs hr
  rw [ha.1, ha.2] at hsh
  exact hsh

end Rnet.Game.Ordering
