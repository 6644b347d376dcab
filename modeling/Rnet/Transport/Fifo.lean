import Rnet.Transport.Joining
import Rnet.Transport.Steps

/-! # The order in which a session's messages leave

The write queue and the deferred queue of an address are both first in, first out, but they are not
served in turn: a message taken from the write queue goes straight to the wire whenever the session
can send, even while earlier messages are still deferred. `InTurn` asks that the deferred queue is
empty at that moment. In runs that meet it the messages of every session leave in the order in which
the write queue admitted them. -/

namespace Rnet.Transport.Fifo

open Rnet.Core Lib.GuardedRun Lib.GuardedRun.Machine Security.Cipher Security.TagNoise
open Config State Slots Stages Moves Steps Worker Joining
open Protocol.Framing (frameOf)

variable {N : Noise}

/-- A message is taken from the write queue while its address could send only if nothing is deferred
there. -/
def InTurn (ep : Endpoint N) : Input N → Prop
  | .outbound _ => ∀ p ∈ ep.receiver.head?, sendsNow (ep.view p.1) = true →
    (ep.slot p.1).deferred = []
  | _ => True

instance (ep : Endpoint N) : (input : Input N) → Decidable (InTurn ep input)
  | .outbound _ => inferInstanceAs (Decidable (∀ p ∈ ep.receiver.head?,
    sendsNow (ep.view p.1) = true → (ep.slot p.1).deferred = []))
  | .datagram .. | .serve _ | .cleanup | .connectTimeout _ | .retryCandidate .. | .reclaim _
  | .driveServer _ | .flushDeferred _ | .retry _ | .prepareSend .. | .offer _ | .closeSession ..
  | .authDecide .. | .command .. => .isTrue trivial

/-! ### Where sessions are -/

def held : Stage → Option Handle
  | .vacant => none
  | .joining session => some session
  | .established session => some session

/-- A session is at one address at a time, and once it sent something it stays there. -/
structure Placed (ep : Endpoint N) : Prop where
  drawn : ∀ a session, held (stageAt ep a) = some session → session < ep.shared.nextSession
  unique : ∀ a b session, held (stageAt ep a) = some session → held (stageAt ep b) = some session →
    a = b
  handed_drawn : ∀ e ∈ ep.handed, e.session < ep.shared.nextSession
  stays : ∀ e ∈ ep.handed, ∀ a, held (stageAt ep a) = some e.session →
    stageAt ep a = .established e.session ∧ a = e.peer
  same_peer : ∀ e ∈ ep.handed, ∀ e' ∈ ep.handed, e.session = e'.session → e.peer = e'.peer

inductive Origin (ep ep' : Endpoint N) (b : SocketAddr) (session : Handle) : Prop
  /-- it was there, and stays established if it was -/
  | kept (h : held (stageAt ep b) = some session)
    (hest : stageAt ep b = .established session → stageAt ep' b = .established session)
  /-- it is new -/
  | drawn (h : session = ep.shared.nextSession) (hnext : session < ep'.shared.nextSession)
    (hvacant : ∀ a, a ≠ b → stageAt ep' a = stageAt ep a)

variable {may : Handle → Prop} {a b : SocketAddr} {ep ep' : Endpoint N} {session : Handle}

theorem origin_of_moved (h : Moved may a ep ep') (hh : held (stageAt ep' b) = some session) :
    Origin ep ep' b session := by
  by_cases hb : b = a
  · subst hb
    have hm := h.stage
    generalize hs' : stageAt ep' b = s' at hm hh
    generalize hs : stageAt ep b = s at hm
    cases hm with
    | stay => exact .kept (hs ▸ hh) fun _ => by rw [hs', ← hs]; assumption
    | leave => cases hh
    | arrive hl =>
      cases hh
      exact .drawn rfl hl fun a ha => (h.elsewhere a ha).stage
    | establish =>
      cases hh
      exact .kept (by rw [hs]; rfl) fun _ => hs'
  · have hst := (h.elsewhere b hb).stage
    exact .kept (hst ▸ hh) fun he => hst.trans he

theorem placed_of_origin (h : Placed ep) (hn : ep.shared.nextSession ≤ ep'.shared.nextSession)
    (hha : ep'.handed = ep.handed)
    (ho : ∀ b session, held (stageAt ep' b) = some session → Origin ep ep' b session) :
    Placed ep' where
  drawn a session ha := by
    cases ho a session ha with
    | kept hh => exact (h.drawn a session hh).trans_le hn
    | drawn _ hl => exact hl
  unique a b session ha hb := by
    by_contra hne
    cases ho a session ha with
    | kept hh =>
      cases ho b session hb with
      | kept hh' => exact hne (h.unique a b session hh hh')
      | drawn heq => exact absurd (h.drawn a session hh) (by rw [heq]; exact lt_irrefl _)
    | drawn heq _ hv =>
      rw [hv b (Ne.symm hne)] at hb
      exact absurd (h.drawn b session hb) (by rw [heq]; exact lt_irrefl _)
  handed_drawn e he := (h.handed_drawn e (hha ▸ he)).trans_le hn
  stays e he a ha := by
    rw [hha] at he
    cases ho a e.session ha with
    | kept hh hes =>
      obtain ⟨hs, hp⟩ := h.stays e he a hh
      exact ⟨hes hs, hp⟩
    | drawn heq => exact absurd (h.handed_drawn e he) (by rw [heq]; exact lt_irrefl _)
  same_peer := by rw [hha]; exact h.same_peer

variable {l : Local N}

theorem placed_of_put (h : Placed ep) (hst : stageAt ep a = .established session)
    (hpe : stageOf l.slot.peer = .established session)
    (hn : ep.shared.nextSession ≤ l.shared.nextSession)
    (hh : ∀ e ∈ l.handed, e ∈ ep.handed ∨ e.session = session ∧ e.peer = a) :
    Placed (ep.put a l) := by
  have hk : ∀ b, stageAt (ep.put a l) b = stageAt ep b := by
    intro b
    rw [stageAt, Endpoint.slot_put]
    split_ifs with hb
    · rw [hb, hst, hpe]
    · rfl
  have hhe : held (stageAt ep a) = some session := by rw [hst]; rfl
  refine ⟨fun b s hb => ?_, fun b b' s hb hb' => ?_, fun e he => ?_, fun e he b hb => ?_,
    fun e he e' he' heq => ?_⟩
  · rw [hk] at hb
    exact (h.drawn b s hb).trans_le hn
  · rw [hk] at hb hb'
    exact h.unique b b' s hb hb'
  · rcases hh e he with ho | ⟨hs, -⟩
    · exact (h.handed_drawn e ho).trans_le hn
    · exact hs ▸ (h.drawn a session hhe).trans_le hn
  · rw [hk] at hb ⊢
    rcases hh e he with ho | ⟨hs, hp⟩
    · exact h.stays e ho b hb
    · have hba := h.unique b a session (hs ▸ hb) hhe
      exact ⟨by rw [hba, hs, hst], hba.trans hp.symm⟩
  · rcases hh e he with ho | ⟨hs, hp⟩ <;> rcases hh e' he' with ho' | ⟨hs', hp'⟩
    · exact h.same_peer e ho e' ho' heq
    · exact hp' ▸ (h.stays e ho a (by rw [hhe, heq, hs'])).2.symm
    · exact hp ▸ (h.stays e' ho' a (by rw [hhe, ← heq, hs])).2
    · rw [hp, hp']

theorem placed_of_moved (h : Placed ep) (hm : Moved may a ep ep') : Placed ep' :=
  placed_of_origin h hm.next hm.handed fun _ _ => origin_of_moved hm

variable {o : Outbound}

theorem mem_noted (h : l.handed = (ep.view a).handed ++ [⟨a, session, o⟩]) (e : Handed)
    (he : e ∈ l.handed) : e ∈ ep.handed ∨ e.session = session ∧ e.peer = a := by
  rw [h, List.mem_append, List.mem_singleton] at he
  exact he.imp_right fun he => by rw [he]; exact ⟨rfl, rfl⟩

variable {call : Call N}

theorem placed_taken (h : Placed ep) (hp : call.peer = a) (ht : Taken call o (ep.view a) l) :
    Placed (ep.put a l) := by
  subst hp
  cases ht with
  | dropped hse => exact placed_of_moved h (.of_served hse)
  | waits hs _ hp _ hh hn =>
    exact placed_of_put h hs hp hn fun e he => .inl (by rwa [hh] at he)
  | handed _ hs _ hp _ hh hn =>
    exact placed_of_put h hs hp hn (mem_noted hh)

theorem placed_flushed (h : Placed ep) (hp : call.peer = a)
    (hf : Flushed call (ep.view a) l) :
    Placed (ep.put a l) := by
  subst hp
  cases hf with
  | none hse => exact placed_of_moved h (.of_served hse)
  | skipped hs _ hp _ hh hn | blocked hs _ _ hp _ hh hn =>
    exact placed_of_put h hs hp hn fun e he => .inl (by rwa [hh] at he)
  | handed hs _ _ hp _ hh hn =>
    exact placed_of_put h hs hp hn (mem_noted hh)

theorem placed_failover (h : Placed ep) (hcu : stageAt ep current = .joining session)
    (hn : stageAt ep' next = .joining session)
    (hg : current ≠ next → stageAt ep' current = .vacant)
    (hel : ∀ b, b ≠ current → b ≠ next → stageAt ep' b = stageAt ep b)
    (hse : ep'.shared.nextSession = ep.shared.nextSession) (hh : ep'.handed = ep.handed) :
    Placed ep' := by
  have hhe : held (stageAt ep current) = some session := by rw [hcu]; rfl
  -- every held session is the moving one at `next`, or was held at its address before
  have hc : ∀ b s, held (stageAt ep' b) = some s → b = next ∧ s = session ∨
      b ≠ next ∧ s ≠ session ∧ held (stageAt ep b) = some s ∧ stageAt ep' b = stageAt ep b := by
    intro b s hb
    by_cases hbn : b = next
    · rw [hbn, hn] at hb
      cases hb
      exact .inl ⟨hbn, rfl⟩
    · have hbc : b ≠ current := by
        rintro rfl
        rw [hg hbn] at hb
        cases hb
      have hk := hel b hbc hbn
      rw [hk] at hb
      refine .inr ⟨hbn, ?_, hb, hk⟩
      rintro rfl
      exact hbc (h.unique b current s hb hhe)
  have hsen : ∀ e ∈ ep.handed, e.session ≠ session := by
    intro e he heq
    have hes := (h.stays e he current (by rw [hhe, heq])).1
    rw [hcu] at hes
    cases hes
  refine ⟨fun a s ha => ?_, fun a b s ha hb => ?_, ?_, fun e he a ha => ?_, ?_⟩
  · rw [hse]
    rcases hc a s ha with ⟨-, rfl⟩ | ⟨-, -, ho, -⟩
    · exact h.drawn current s hhe
    · exact h.drawn a s ho
  · rcases hc a s ha with ⟨rfl, rfl⟩ | ⟨-, hne, ho, -⟩ <;>
      rcases hc b s hb with ⟨rfl, hs⟩ | ⟨-, hn', ho', -⟩
    · rfl
    · exact absurd rfl hn'
    · exact absurd hs hne
    · exact h.unique a b s ho ho'
  · rw [hse, hh]; exact h.handed_drawn
  · rw [hh] at he
    rcases hc a _ ha with ⟨-, hs⟩ | ⟨-, -, ho, hk⟩
    · exact absurd hs (hsen e he)
    · rw [hk]; exact h.stays e he a ho
  · rw [hh]; exact h.same_peer

theorem placed_step (setup : Setup N) (h : Placed ep) : Placed (step setup ep input) := by
  have hca := step_cases setup ep input
  generalize step setup ep input = ep' at hca
  cases hca with
  | moved a hm => exact placed_of_moved h hm
  | taken call _ _ ht he =>
    rw [he]
    have hp := placed_taken h rfl ht
    exact ⟨hp.drawn, hp.unique, hp.handed_drawn, hp.stays, hp.same_peer⟩
  | @flushed call _ hf he =>
    exact he ▸ placed_flushed h (show (ep.answer call).peer = call.peer from rfl) hf
  | queued _ _ _ _ hsl hn _ _ hh =>
    have hs : ∀ b, stageAt ep' b = stageAt ep b := fun b => by
      rw [stageAt, stageAt, Endpoint.slot, Endpoint.slot, hsl]
    refine placed_of_origin h hn.ge hh fun b s hb => ?_
    exact .kept (hs b ▸ hb) fun hes => (hs b).trans hes
  | failover hc hn hg hel _ hse _ _ hh =>
    exact placed_failover h hc hn hg hel hse hh

theorem placed_of_fresh (h : Fresh ep) : Placed ep := by
  obtain ⟨r, hst⟩ := h.stage
  have hh : ∀ b s, held (stageAt ep b) = some s → b = r ∧ s < ep.shared.nextSession := by
    intro b s hb
    rcases hst b with hv | ⟨hr, session, hs, hl⟩
    · rw [hv] at hb; cases hb
    · rw [hs] at hb; cases hb; exact ⟨hr, hl⟩
  have hn : ∀ e, e ∉ ep.handed := by rw [h.handed]; exact fun _ => List.not_mem_nil
  refine ⟨fun b s hb => (hh b s hb).2, fun a b s ha hb => ?_, fun e he => absurd he (hn e),
    fun e he => absurd he (hn e), fun e he => absurd he (hn e)⟩
  exact (hh a s ha).1.trans (hh b s hb).1.symm

/-! ### The line of an address -/

/-- Tickets of the messages that left an address. -/
def departed (handed : List Handed) (a : SocketAddr) : List ℕ :=
  (handed.filter fun e => e.peer = a).map fun e => e.outbound.ticket

def waiting (receiver : List (SocketAddr × Outbound)) (a : SocketAddr) : List ℕ :=
  (receiver.filter fun p => p.1 = a).map fun p => p.2.ticket

/-- Tickets of the messages that left an address, are deferred there and wait for it. -/
def line (ep : Endpoint N) (a : SocketAddr) : List ℕ :=
  departed ep.handed a ++ ((ep.slot a).deferred.map fun o => o.ticket) ++ waiting ep.receiver a

def tickets (ep : Endpoint N) : List ℕ := ep.admitted.map fun o => o.ticket

/-- The line of every address is in order of admission. -/
structure Lined (ep : Endpoint N) : Prop where
  numbered : tickets ep = List.range ep.admitted.length
  line : ∀ a, (line ep a).Sublist (tickets ep)

theorem departed_append (handed : List Handed) (b : SocketAddr) (e : Handed) :
    departed (handed ++ [e]) b =
      departed handed b ++ if e.peer = b then [e.outbound.ticket] else [] := by
  rw [departed, List.filter_append, List.map_append]
  by_cases h : e.peer = b
  · simp [departed, h]
  · simp [departed, h]

theorem waiting_cons (receiver : List (SocketAddr × Outbound)) (a b : SocketAddr) (o : Outbound) :
    waiting ((a, o) :: receiver) b =
      (if a = b then [o.ticket] else []) ++ waiting receiver b := by
  by_cases h : a = b <;> simp [waiting, h]

theorem waiting_append (receiver : List (SocketAddr × Outbound)) (a b : SocketAddr)
    (o : Outbound) : waiting (receiver ++ [(a, o)]) b =
      waiting receiver b ++ if a = b then [o.ticket] else [] := by
  rw [waiting, List.filter_append, List.map_append]
  by_cases h : a = b <;> simp [waiting, h]

theorem Lined.shrink (h : Lined ep) (ha : ep'.admitted = ep.admitted)
    (hl : ∀ a, (Fifo.line ep' a).Sublist (Fifo.line ep a)) : Lined ep' := by
  have ht : tickets ep' = tickets ep := by rw [tickets, ha]; rfl
  refine ⟨by rw [ht, ha]; exact h.numbered, fun a => ?_⟩
  rw [ht]
  exact (hl a).trans (h.line a)

theorem lined_of_moved (h : Lined ep) (hm : Moved may a ep ep') : Lined ep' := by
  refine h.shrink hm.admitted fun b => ?_
  have hde : (ep'.slot b).deferred.Sublist (ep.slot b).deferred := by
    by_cases hb : b = a
    · subst hb
      rcases hm.deferred with hd | hd <;> rw [hd]
      exact List.nil_sublist _
    · rw [(hm.elsewhere b hb).deferred]
  rw [line, line, hm.handed, hm.receiver]
  exact ((List.Sublist.refl _).append (hde.map _)).append (.refl _)

/-- One address is served and the write queue loses a prefix: it is enough to look at the line of
that address. -/
theorem lined_of_put (h : Lined ep)
    (he : ∀ b, b ≠ a → departed l.handed b = departed ep.handed b ∧
      waiting receiver b = waiting ep.receiver b)
    (hl : (departed l.handed a ++ (l.slot.deferred.map fun o => o.ticket) ++
      waiting receiver a).Sublist (line ep a)) :
    Lined { ep.put a l with receiver := receiver } := by
  refine h.shrink rfl fun b => ?_
  show (departed l.handed b ++ (((ep.put a l).slot b).deferred.map fun o => o.ticket) ++
    waiting receiver b).Sublist _
  rw [Endpoint.slot_put]
  by_cases hb : b = a
  · rw [if_pos hb, hb]
    exact hl
  obtain ⟨hd, hw⟩ := he b hb
  rw [if_neg hb, hd, hw]
  exact .refl _

theorem departed_noted (hb : b ≠ a) :
    departed (handed ++ [⟨a, session, o⟩]) b = departed handed b := by
  rw [departed_append, if_neg (Ne.symm hb), List.append_nil]

theorem waiting_rest (o : Outbound) (hb : b ≠ a) : waiting rest b = waiting ((a, o) :: rest) b := by
  rw [waiting_cons, if_neg (Ne.symm hb), List.nil_append]

theorem lined_taken (h : Lined ep) (hp : call.peer = a) (hf : ep.receiver = (a, o) :: rest)
    (hg : sendsNow (ep.view a) = true → (ep.slot a).deferred = [])
    (ht : Taken call o (ep.view a) l) : Lined { ep.put a l with receiver := rest } := by
  subst hp
  have hl : line ep call.peer = departed ep.handed call.peer ++
      ((ep.slot call.peer).deferred.map fun o => o.ticket) ++
        (o.ticket :: waiting rest call.peer) := by
    rw [line, hf, waiting_cons, if_pos rfl]
    rfl
  cases ht with
  | dropped hse =>
    refine (lined_of_moved h (.of_served hse)).shrink rfl fun b => ?_
    refine List.Sublist.append (.refl _) ?_
    show (waiting rest b).Sublist (waiting ep.receiver b)
    rw [hf, waiting_cons]
    exact List.sublist_append_right _ _
  | waits hst hs hp hd hh =>
    replace hh : l.handed = ep.handed := hh
    replace hd : l.slot.deferred = (ep.slot call.peer).deferred ++ _ := hd
    refine lined_of_put h (fun b hb => ⟨by rw [hh], hf ▸ waiting_rest o hb⟩) ?_
    rw [hh, hd, hl, List.map_append, List.append_assoc, List.append_assoc,
      List.append_assoc, List.map_singleton, hs.ticket, List.singleton_append]
  | handed hn hst hs hp hd hh =>
    replace hh : l.handed = ep.handed ++ _ := hh
    have he : l.slot.deferred = [] := hd.trans (hg hn)
    refine lined_of_put h (fun b hb => ⟨?_, hf ▸ waiting_rest o hb⟩) ?_
    · rw [hh, departed_noted hb]
    · rw [hh, he, hl, hg hn, departed_append, if_pos rfl, List.map_nil,
        List.append_nil, List.append_nil, hs.ticket, List.append_assoc, List.singleton_append]

theorem lined_flushed
    (h : Lined ep) (hp : call.peer = a) (hfl : Flushed call (ep.view a) l) :
    Lined (ep.put a l) := by
  subst hp
  -- what is left of the line once its deferred part is known
  have hpu : ∀ rest : List ℕ, (∀ b, b ≠ call.peer → departed l.handed b = departed ep.handed b) →
      departed l.handed call.peer ++ (l.slot.deferred.map fun o => o.ticket) = rest →
      rest.Sublist (departed ep.handed call.peer ++
        ((ep.slot call.peer).deferred.map fun o => o.ticket)) → Lined (ep.put call.peer l) :=
    fun rest he heq hsu =>
      lined_of_put h (fun b hb => ⟨he b hb, rfl⟩) (by rw [heq]; exact hsu.append (.refl _))
  cases hfl with
  | none hse => exact lined_of_moved h (.of_served hse)
  | skipped hst hf hp hd hh =>
    replace hf : (ep.slot call.peer).deferred = _ := hf
    replace hh : l.handed = ep.handed := hh
    refine hpu _ (fun b _ => by rw [hh]) (by rw [hh, hd]) ?_
    rw [hf]
    exact (List.Sublist.refl _).append ((List.sublist_cons_self _ _).map _)
  | blocked hst hf hs hp hd hh =>
    replace hf : (ep.slot call.peer).deferred = _ := hf
    replace hh : l.handed = ep.handed := hh
    refine hpu _ (fun b _ => by rw [hh]) (by rw [hh, hd]) ?_
    rw [hf, List.map_cons, List.map_cons, hs.ticket]
  | handed hst hf hs hp hd hh =>
    replace hf : (ep.slot call.peer).deferred = _ := hf
    replace hh : l.handed = ep.handed ++ _ := hh
    refine hpu _ (fun b hb => by rw [hh, departed_noted hb]) (by rw [hh, hd]) ?_
    rw [hf, departed_append, if_pos rfl, List.map_cons, hs.ticket, List.append_assoc,
      List.singleton_append]

/-- **A guarded step keeps the lines.** -/
theorem lined_step (setup : Setup N) (h : Lined ep) (hg : InTurn ep input) :
    Lined (step setup ep input) := by
  have hc := step_cases setup ep input
  generalize step setup ep input = ep' at hc
  cases hc with
  | moved a hm => exact lined_of_moved h hm
  | @taken call a o rest l hi hf hta he =>
    subst hi
    rw [he]
    refine lined_taken h (show (ep.answer { call with peer := a }).peer = a from rfl) hf ?_ hta
    exact hg (a, o) (by rw [hf]; rfl)
  | @flushed call _ hfl he =>
    exact he ▸ lined_flushed h (show (ep.answer call).peer = call.peer from rfl) hfl
  | @queued _ f o _ _ _ hti hs _ hr ha hh =>
    have ht : tickets ep' = tickets ep ++ [ep.admitted.length] := by
      rw [tickets, ha, List.map_append, List.map_singleton, hti]
      rfl
    refine ⟨?_, fun b => ?_⟩
    · rw [ht, h.numbered, ha, List.length_append, List.length_singleton,
        List.range_succ]
    rw [ht, line, hh, hr, waiting_append, hti, Endpoint.slot, hs,
      ← List.append_assoc]
    refine List.Sublist.append (h.line b) ?_
    split_ifs
    · exact .refl _
    · exact List.nil_sublist _
  | failover _ _ _ _ hd _ hr ha hh =>
    refine h.shrink ha fun b => ?_
    rw [line, line, hd, hr, hh]

theorem lined_of_fresh (h : Fresh ep) : Lined ep := by
  refine ⟨by rw [tickets, h.admitted]; rfl, fun a => ?_⟩
  rw [line, h.deferred, h.receiver, h.handed]
  exact List.nil_sublist _

/-! ### Order of a session -/

/-- Tickets of the messages that left on a session, in the order in which they left. -/
def left (ep : Endpoint N) (session : Handle) : List ℕ :=
  (ep.handed.filter fun e => e.session = session).map fun e => e.outbound.ticket

theorem left_sublist_line (h : Placed ep) (session : Handle) :
    left ep session = [] ∨ ∃ a, (left ep session).Sublist (line ep a) := by
  by_cases hn : ∃ e ∈ ep.handed, e.session = session
  · obtain ⟨e, he, hs⟩ := hn
    refine .inr ⟨e.peer, ?_⟩
    have hf : (ep.handed.filter fun e => e.session = session) =
        (ep.handed.filter fun e' => e'.peer = e.peer).filter fun e => e.session = session := by
      rw [List.filter_filter]
      refine List.filter_congr fun e' he' => ?_
      by_cases hs' : e'.session = session
      · simp [hs', h.same_peer e' he' e he (hs'.trans hs.symm)]
      · simp [hs']
    rw [left, hf, line, List.append_assoc]
    exact (List.filter_sublist.map _).trans (List.sublist_append_left _ _)
  · refine .inl ?_
    push Not at hn
    rw [left, List.filter_eq_nil_iff.mpr fun e he => by simpa using hn e he, List.map_nil]

/-- **In every run that takes messages in turn, the messages of a session leave in the order in which
they were admitted, none of them twice.** Admitted messages are numbered in order of admission. -/
theorem messages_leave_in_order (setup : Setup N) {ep : Endpoint N}
    (h : (machine setup).Reach InTurn ep) (session : Handle) :
    tickets ep = List.range ep.admitted.length ∧ (left ep session).Sublist (tickets ep) := by
  have hl : Lined ep := h.invariant (fun _ hi => lined_of_fresh (fresh_of_init setup hi))
    fun _ _ => lined_step setup
  have hpl : Placed ep := h.invariant
    (fun _ hi => placed_of_fresh (fresh_of_init setup hi)) fun _ _ hp _ => placed_step setup hp
  refine ⟨hl.numbered, ?_⟩
  rcases left_sublist_line hpl session with hn | ⟨a, hs⟩
  · rw [hn]; exact List.nil_sublist _
  · exact hs.trans (hl.line a)

def narrow : RuntimeConfig := { RuntimeConfig.production with maxSessionQueuedBytes := 2352 }

/-- The client acknowledges everything it was sent. -/
def acknowledge (now : Instant) : Input tagNoise :=
  .datagram (calm home now (9 : UInt64)) [] ⟨.ok (), .ok (), 0, false, []⟩

def congested : List (Input tagNoise) :=
  [.prepareSend ⟨0, 0⟩ 1 (frameOf 6 [0]) .data none, .offer 0,
    .prepareSend ⟨0, 0⟩ 1 (frameOf 6 [1]) .data none, .offer 0,
    .outbound (calm home 1 (9 : UInt64))]

/-- The window opens and the deferred message is flushed before the next one is taken. -/
def inTurn : List (Input tagNoise) :=
  congested ++ [acknowledge 2, .flushDeferred (calm home 3 (9 : UInt64)), acknowledge 4,
    .outbound (calm home 5 (9 : UInt64))]

theorem messages_leave_in_order_congested :
    left ((machine (server .kcp)).run (joined .kcp narrow) inTurn) 1 = [0, 1] ∧
    (left ((machine (server .kcp)).run (joined .kcp narrow) inTurn) 1).Sublist
      (tickets ((machine (server .kcp)).run (joined .kcp narrow) inTurn)) := by
  refine ⟨by decide +kernel, (messages_leave_in_order (server .kcp) ?_ 1).2⟩
  refine reach_run _ (reach_run _ (.start ⟨narrow, 3600000, by decide, rfl, .inl rfl⟩) ?_) ?_
  · decide +kernel
  · decide +kernel

/-- When the window opens and the worker takes the next message first, it overtakes. -/
theorem queued_message_overtakes :
    left ((machine (server .kcp)).run (joined .kcp narrow) (congested ++ [acknowledge 2,
      .outbound (calm home 3 (9 : UInt64)), acknowledge 4,
      .flushDeferred (calm home 5 (9 : UInt64))])) 1 = [1, 0] := by
  decide +kernel

end Rnet.Transport.Fifo
