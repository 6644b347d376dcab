import Rnet.Game.Runtime

/-! # Sends, cleanup and stop cut at their locks

`send`, `send_with_options` and `send_latest` run without the poll lock. `SendAdmission` is what
keeps them from filling the queues of a session that is gone: a call tests readiness and stages its
message under the read side of one lock, and whoever changes readiness takes the write side. Here
every call is cut at its locks: any number of sends, the call that owns the poll lock (a poll, a
close, a flush or a stop), the calls that reject a candidate, which do not take that lock, and the
workers of the transport interleave.

Of the rest of the runtime only what decides about publication is kept: the routes, the registered
endpoints and the sessions in negotiation. Which events are queued, which candidates a close revokes
and which routes the transport loses is left to the environment, as is whether a message passes the
length checks and fits the budgets. A session is a handle that the transport has issued; no handle is
issued twice. -/

namespace Rnet.Game.SendCalls

open Rnet.Core Lib.FiniteMap Lib.GuardedRun Game.Runtime

/-! ### The calls cut at their locks -/

/-- What a send stages. -/
inductive Item
  | scheduled (message : Outgoing)
  | latest (key : UInt64) (message : Outgoing)
  deriving DecidableEq

/-- Where a send has got to; from `locked` to `queued` it holds the read side of the admission. -/
inductive SendStage
  | called | running | checked | valid | locked | admitted | queued | returned
  deriving DecidableEq

def SendStage.reading : SendStage → Bool
  | .locked | .admitted | .queued => true
  | _ => false

/-- A send in progress. -/
structure SendCall where
  session : Handle
  item : Item
  stage : SendStage
  deriving DecidableEq

/-- Tables a cleanup clears. -/
inductive Part
  | owner | admission | realtime | scheduled | range
  deriving DecidableEq

def parts : List Part := [.owner, .admission, .realtime, .scheduled, .range]

/-- A route before the decision of the application, after its refusal, open and removed. -/
inductive RouteStage
  | joining | rejected | established | closed
  deriving DecidableEq

structure Session where
  endpoint : Handle
  stage : RouteStage
  deriving DecidableEq

/-- What the owner of the poll lock is doing. A cleanup remembers the endpoint that is being retired,
with the sessions of it that are left. -/
inductive Task
  | idle
  | opening (session endpoint : Handle)
  | publishing (session : Handle)
  | forwarding (session : Handle) (message : Outgoing)
  | forwardingLatest (session : Handle) (key : UInt64) (message : Outgoing)
  | forgetting (session : Handle) (left : List Part) (after : Option (Handle × List Handle))
  | retiring (endpoint : Handle) (sessions : List Handle)
  | drained | halted | rangeCleared | readyCleared | realtimeCleared | scheduledCleared
  deriving DecidableEq

/-- Who holds the write side. -/
inductive Caller
  | call | stop
  deriving DecidableEq

/-- Answers of the network. -/
inductive Outcome
  | accepted | wouldBlock | failed
  deriving DecidableEq

/-- The shared tables and the calls in progress. `forgotten` are the sessions whose cleanup has
returned and `stopped` says that a stop has succeeded; no call reads them. -/
structure World where
  ready : Table Handle Unit
  stopping : Bool
  scheduled : List (Handle × Outgoing)
  realtime : Table (Handle × UInt64) Outgoing
  negotiations : Table Handle Unit
  owners : Table Handle Handle
  transports : Table Handle Unit
  endpoints : List Handle
  sessions : Table Handle Session
  running : Bool
  calls : List SendCall
  rejections : Table Handle (List Part)
  holder : Option Caller
  task : Task
  forgotten : List Handle
  stopped : Bool

/-- Sections of all threads. -/
inductive Input
  | register (endpoint : Handle)
  | issue (session endpoint : Handle)
  | establish (session : Handle)
  | lose (session : Handle)
  | call (session : Handle) (item : Item)
  | send (index : ℕ) (ok : Bool)
  | reject (session : Handle)
  | clean (session : Handle)
  | beginStop
  | acquire (caller : Caller)
  | release
  | authorize (session : Handle)
  | convertOpened (session : Handle)
  | negotiated (session : Handle)
  | convertClosed (session : Handle)
  | discard (session : Handle)
  | retire (endpoint : Handle)
  | pop (index : ℕ) (expired : Bool)
  | popLatest (session : Handle) (key : UInt64)
  | sent (outcome : Outcome) (room : Bool)
  | drain
  | proceed
  deriving DecidableEq

namespace World

/-- No send holds the read side, so the write side can be taken. -/
def free (w : World) : Bool := w.calls.all fun c => !c.stage.reading

/-- `validate_payload_len` of an empty payload. -/
def live (w : World) (session : Handle) : Bool :=
  w.running && (w.sessions.lookup session).any fun r => r.stage = .established

/-- `close_session` of the network, and what the transport does when it loses a route. -/
def closeRoute (w : World) (session : Handle) : World :=
  match w.sessions.lookup session with
  | none => w
  | some r => { w with sessions := w.sessions.insert session { r with stage := .closed } }

def forgetPart (session : Handle) (w : World) : Part → World
  | .owner => { w with owners := w.owners.erase session }
  | .admission => { w with ready := w.ready.erase session }
  | .realtime => { w with realtime := filter w.realtime fun key _ => key.1 ≠ session }
  | .scheduled => { w with scheduled := w.scheduled.filter fun m => m.1 ≠ session }
  | .range => { w with negotiations := w.negotiations.erase session }

/-- Only the removal of readiness waits for sends. -/
def waits (w : World) (part : Part) : Bool := part = .admission && !w.free

def enqueue (w : World) (session : Handle) : Item → World
  | .scheduled m => { w with scheduled := w.scheduled ++ [(session, m)] }
  | .latest key m => { w with realtime := w.realtime.insert (session, key) m }

/-- The next section of a send. `ok` is whether the message passes the checks of length, route and
expiry and, later, whether it fits the budgets. -/
def sendNext (w : World) (c : SendCall) (ok : Bool) : World × SendStage :=
  match c.stage with
  | .called => (w, if w.stopping then .returned else .running)
  | .running => (w, if (w.ready.lookup c.session).isSome then .checked else .returned)
  | .checked => (w, if ok then .valid else .returned)
  | .valid => (w, .locked)
  | .locked =>
    (w, if (w.ready.lookup c.session).isNone || w.stopping then .returned else .admitted)
  | .admitted => (if ok then w.enqueue c.session c.item else w, .queued)
  | .queued => (w, .returned)
  | .returned => (w, .returned)

def advanceSend (w : World) (index : ℕ) (c : SendCall) (ok : Bool) : World :=
  let stepped := w.sendNext c ok
  { stepped.1 with calls := stepped.1.calls.set index { c with stage := stepped.2 } }

def owned (w : World) (endpoint : Handle) : List Handle :=
  (filter w.owners fun _ e => e = endpoint).entries.map Sigma.fst

/-- The queue takes back a message the transport refused: a newer snapshot wins its key. -/
def requeue (w : World) (session : Handle) (room : Bool) : Item → World
  | .scheduled m => { w with scheduled := w.scheduled ++ [(session, m)] }
  | .latest key m =>
    if (w.realtime.lookup (session, key)).isSome || !room then w
    else { w with realtime := w.realtime.insert (session, key) m }

def answer (w : World) (session : Handle) (item : Item) (outcome : Outcome) (room : Bool) : World :=
  match outcome with
  | .wouldBlock => { w.requeue session room item with task := .idle }
  | _ => { w with task := .idle }

def resumed : Option (Handle × List Handle) → Task
  | none => .idle
  | some (endpoint, sessions) => .retiring endpoint sessions

/-- The next section of what the owner of the poll lock is doing. -/
def proceed (w : World) : World :=
  match w.task with
  | .opening session endpoint =>
    { w with
      owners := w.owners.insert session endpoint
      negotiations := w.negotiations.insert session ()
      task := .idle }
  | .publishing session =>
    if w.free then { w with ready := w.ready.insert session (), task := .idle } else w
  | .forgetting session (part :: left) after =>
    if w.waits part then w
    else { forgetPart session w part with task := .forgetting session left after }
  | .forgetting session [] after =>
    { w with forgotten := session :: w.forgotten, task := resumed after }
  | .retiring endpoint (session :: sessions) =>
    { w with task := .forgetting session parts (some (endpoint, sessions)) }
  | .retiring endpoint [] => { w with transports := w.transports.erase endpoint, task := .idle }
  | .drained => { w with task := .halted }
  | .halted => { w with negotiations := ∅, task := .rangeCleared }
  | .rangeCleared => if w.free then { w with ready := ∅, task := .readyCleared } else w
  | .readyCleared => { w with realtime := ∅, task := .realtimeCleared }
  | .realtimeCleared => { w with scheduled := [], task := .scheduledCleared }
  | .scheduledCleared =>
    { w with transports := ∅, owners := ∅, holder := none, task := .idle, stopped := true }
  | .idle | .forwarding _ _ | .forwardingLatest _ _ _ => w

/-- A close with its cleanup, by a call or while an endpoint is retired. -/
def discard (w : World) (session : Handle) : World :=
  if (w.sessions.lookup session).isNone then w
  else
    match w.task with
    | .idle => { w.closeRoute session with task := .forgetting session parts none }
    | .retiring endpoint sessions =>
      { w.closeRoute session with task := .forgetting session parts (some (endpoint, sessions)) }
    | _ => w

def polling (w : World) : Bool := w.holder = some .call && w.task = .idle

/-- The owner of the poll lock may flush. -/
def flushing (w : World) : Bool := w.holder.isSome && w.task = .idle

/-- One section of one thread. -/
def step (w : World) : Input → World
  | .register endpoint =>
    if endpoint ∈ w.endpoints then w
    else
      { w with
        endpoints := endpoint :: w.endpoints, transports := w.transports.insert endpoint () }
  | .issue session endpoint =>
    if (w.sessions.lookup session).isSome ∨ endpoint ∉ w.endpoints then w
    else { w with sessions := w.sessions.insert session ⟨endpoint, .joining⟩ }
  | .establish session =>
    match w.sessions.lookup session with
    | some ⟨endpoint, .joining⟩ =>
      { w with sessions := w.sessions.insert session ⟨endpoint, .established⟩ }
    | _ => w
  | .lose session => w.closeRoute session
  | .call session item => { w with calls := w.calls ++ [⟨session, item, .called⟩] }
  | .send index ok =>
    match w.calls[index]? with
    | none => w
    | some c => w.advanceSend index c ok
  | .reject session =>
    match w.sessions.lookup session with
    | some ⟨endpoint, .joining⟩ =>
      { w with
        sessions := w.sessions.insert session ⟨endpoint, .rejected⟩
        rejections := w.rejections.insert session parts }
    | _ => w
  | .clean session =>
    match w.rejections.lookup session with
    | none => w
    | some [] =>
      { w with
        rejections := w.rejections.erase session, forgotten := session :: w.forgotten }
    | some (part :: left) =>
      if w.waits part then w
      else { forgetPart session w part with rejections := w.rejections.insert session left }
  | .beginStop => { w with stopping := true }
  | .acquire caller =>
    if w.holder.isSome || (caller = .stop && !w.stopping) then w
    else { w with holder := some caller }
  | .release =>
    if w.task = .idle || w.task = .drained then { w with holder := none, task := .idle } else w
  | .authorize session =>
    match w.sessions.lookup session with
    | none => w
    | some r =>
      if w.polling then { w with owners := w.owners.insert session r.endpoint } else w
  | .convertOpened session =>
    match w.sessions.lookup session with
    | none => w
    | some r =>
      if w.polling && (w.transports.lookup r.endpoint).isSome && w.live session then
        { w with task := .opening session r.endpoint }
      else w
  | .negotiated session =>
    if w.polling && (w.negotiations.lookup session).isSome then
      if w.live session then { w with task := .publishing session }
      else { w with task := .forgetting session parts none }
    else w
  | .convertClosed session =>
    match w.sessions.lookup session with
    | some ⟨_, .closed⟩ =>
      if w.polling then { w with task := .forgetting session parts none } else w
    | _ => w
  | .discard session => if w.holder = some .call then w.discard session else w
  | .retire endpoint =>
    if w.polling then { w with task := .retiring endpoint (w.owned endpoint) } else w
  | .pop index expired =>
    match w.scheduled[index]? with
    | none => w
    | some (session, m) =>
      if w.flushing then
        { w with
          scheduled := w.scheduled.eraseIdx index
          task := if expired then .idle else .forwarding session m }
      else w
  | .popLatest session key =>
    match w.realtime.lookup (session, key) with
    | none => w
    | some m =>
      if w.flushing then
        { w with
          realtime := w.realtime.erase (session, key), task := .forwardingLatest session key m }
      else w
  | .sent outcome room =>
    match w.task with
    | .forwarding session m => w.answer session (.scheduled m) outcome room
    | .forwardingLatest session key m => w.answer session (.latest key m) outcome room
    | _ => w
  | .drain =>
    if w.holder = some .stop ∧ w.task = .idle then { w with running := false, task := .drained }
    else w
  | .proceed => w.proceed

def initial : World where
  ready := ∅
  stopping := false
  scheduled := []
  realtime := ∅
  negotiations := ∅
  owners := ∅
  transports := ∅
  endpoints := []
  sessions := ∅
  running := true
  calls := []
  rejections := ∅
  holder := none
  task := .idle
  forgotten := []
  stopped := false

def machine : Machine World Input where
  init w := w = initial
  step := step

end World

/-! ### Alone, the cut calls are the calls -/

/-- The world holds the tables of the runtime. -/
structure Matches (w : World) (g : GameRuntime) : Prop where
  ready : w.ready = g.admission
  scheduled : w.scheduled = g.scheduled
  realtime : w.realtime = g.realtime
  owners : w.owners = g.sessionEndpoints

variable {w : World} {g : GameRuntime}

/-- **An undisturbed cleanup is `forget_ready_session`.** -/
theorem matches_forget (h : Matches w g) (session : Handle) :
    Matches (parts.foldl (World.forgetPart session) w) (g.forgetReadySession session) where
  ready := congrArg (AList.erase session) h.ready
  scheduled := congrArg (List.filter _) h.scheduled
  realtime := congrArg
    (fun t : Table (Handle × UInt64) Outgoing => filter t fun key _ => key.1 ≠ session) h.realtime
  owners := congrArg (AList.erase session) h.owners

/-- A send from one stage on, when nothing comes between. -/
def sendRun (session : Handle) (item : Item) : World → SendStage → List Bool → World × SendStage
  | w, stage, [] => (w, stage)
  | w, stage, ok :: oks =>
    sendRun session item (w.sendNext ⟨session, item, stage⟩ ok).1
      (w.sendNext ⟨session, item, stage⟩ ok).2 oks

def Item.payload : Item → Rnet.Lib.BigEndian.Bytes
  | .scheduled m => m.payload
  | .latest _ m => m.payload

/-- What the checks of length and route say about an item. -/
def passes (g : GameRuntime) (session : Handle) (item : Item) : Bool :=
  (g.network.validatePayloadLen session
    (item.payload.length + if (g.udpSessions.lookup session).isSome then 16 else 12)).isOk

def sendItem (g : GameRuntime) (session : Handle) (room : Bool) : Item → GameRuntime
  | .scheduled m => (g.sendScheduled session m room).1
  | .latest key m => (g.sendLatest session key m.payload m.tick room).1

variable {item : Item}

theorem matches_enqueue (h : Matches w g)
    (hi : ∀ key m, item = .latest key m → m.sequence = none ∧ m.correlationId = 0) (room : Bool)
    (ha : ∀ full, g.admits session item.payload full room = .ok ()) :
    Matches (w.enqueue session item) (sendItem g session room item) := by
  cases item with
  | scheduled m =>
    have ha : g.admits session m.payload "scheduled game queue budget is full" room = .ok () :=
      ha _
    simp only [sendItem, GameRuntime.sendScheduled, ha]
    exact ⟨h.ready, congrArg (· ++ [(session, m)]) h.scheduled, h.realtime, h.owners⟩
  | latest key m =>
    obtain ⟨payload, sequence, tick, correlationId⟩ := m
    obtain ⟨rfl, rfl⟩ : sequence = none ∧ correlationId = 0 := hi _ _ rfl
    have ha : g.admits session payload "realtime queue budget is full" room = .ok () :=
      ha _
    simp only [sendItem, GameRuntime.sendLatest, ha]
    exact ⟨h.ready, h.scheduled, congrArg (AList.insert (session, key) _) h.realtime, h.owners⟩

theorem sendItem_refused (hr : ∀ full, ∃ e, g.admits session item.payload full room = .error e) :
    sendItem g session room item = g := by
  cases item with
  | scheduled m =>
    obtain ⟨e, he : g.admits session m.payload _ room = .error e⟩ :=
      hr "scheduled game queue budget is full"
    simp only [sendItem, GameRuntime.sendScheduled, he]
  | latest key m =>
    obtain ⟨e, he : g.admits session m.payload _ room = .error e⟩ :=
      hr "realtime queue budget is full"
    simp only [sendItem, GameRuntime.sendLatest, he]

theorem sendRun_eq (hs : w.stopping = false) (session : Handle) (item : Item)
    (valid room : Bool) :
    sendRun session item w .called [true, true, valid, true, true, room, true] =
      (if (w.ready.lookup session).isSome && valid && room then w.enqueue session item else w,
        .returned) := by
  cases hr : w.ready.lookup session <;> cases valid <;> cases room <;>
    simp [sendRun, World.sendNext, hs, hr]

theorem admits_eq (g : GameRuntime) (session : Handle) (item : Item) (room : Bool) (full : String) :
    (g.admits session item.payload full room).isOk =
      ((g.admission.lookup session).isSome && passes g session item && room) := by
  unfold GameRuntime.admits GameRuntime.ensureGameReady passes
  cases (g.admission.lookup session).isSome with
  | false =>
    rw [if_neg Bool.false_ne_true]
    rcases g.network.validatePayloadLen session 0 with e | u <;> rfl
  | true =>
    rw [if_pos rfl]
    rcases g.network.validatePayloadLen session _ with e | u
    · rfl
    · cases room <;> rfl

/-- **An undisturbed send is `send_scheduled` or `send_latest_with_tick`**; a snapshot carries
neither a sequence nor a correlation. -/
theorem matches_send (h : Matches w g) (hs : w.stopping = false) (session : Handle) (room : Bool)
    (hi : ∀ key m, item = .latest key m → m.sequence = none ∧ m.correlationId = 0) :
    ∃ w', sendRun session item w .called
        [true, true, passes g session item, true, true, room, true] = (w', .returned) ∧
      Matches w' (sendItem g session room item) := by
  refine ⟨_, sendRun_eq hs session item _ room, ?_⟩
  have ha := admits_eq g session item room
  rw [← h.ready] at ha
  split_ifs with ho
  · refine matches_enqueue h hi room fun full => ?_
    have hf := (ha full).trans ho
    rcases hr : g.admits session item.payload full room with e | u
    · rw [hr] at hf
      cases hf
    · rfl
  · rw [sendItem_refused fun full => ?_]
    · exact h
    have hf := (ha full).trans (Bool.eq_false_iff.mpr ho)
    rcases hr : g.admits session item.payload full room with e | u
    · exact ⟨e, rfl⟩
    · rw [hr] at hf
      cases hf

/-- **An undisturbed end of a stop is that of `stop`.** -/
theorem matches_stop (g : GameRuntime) (ht : w.task = .halted) (hf : w.free = true) :
    Matches (World.proceed^[6] w) g.stop := by
  have hr : w.proceed = { w with negotiations := ∅, task := .rangeCleared } := by
    simp only [World.proceed, ht]
  have hre : World.proceed { w with negotiations := ∅, task := .rangeCleared } =
      { w with negotiations := ∅, ready := ∅, task := .readyCleared } := if_pos hf
  rw [show (6 : ℕ) = 4 + 1 + 1 from rfl, Function.iterate_succ_apply, hr,
    Function.iterate_succ_apply, hre]
  exact ⟨rfl, rfl, rfl, rfl⟩

/-! ### What a task is about -/

def Task.retired : Task → Option Handle
  | .retiring endpoint _ => some endpoint
  | .forgetting _ _ after => after.map Prod.fst
  | _ => none

/-- Messages that wait in a queue for the end of a cleanup. -/
def Task.discards (s : Handle) (part : Part) : Task → Prop
  | .forgetting session left _ => session = s ∧ part ∈ left
  | .readyCleared => True
  | .realtimeCleared => part = .scheduled
  | _ => False

/-- The task in hand neither leaves messages behind nor retires an endpoint. -/
def Task.plain : Task → Bool
  | .forgetting _ _ _ | .retiring _ _ | .readyCleared | .realtimeCleared => false
  | _ => true

theorem Task.plain_retired : ∀ {t : Task}, t.plain = true → t.retired = none
  | .idle, _ | .opening _ _, _ | .publishing _, _ | .forwarding _ _, _ | .forwardingLatest _ _ _, _
  | .drained, _ | .halted, _ | .rangeCleared, _ | .scheduledCleared, _ => rfl

theorem Task.plain_discards : ∀ {t : Task}, t.plain = true → ∀ s part, ¬t.discards s part
  | .idle, _ | .opening _ _, _ | .publishing _, _ | .forwarding _ _, _ | .forwardingLatest _ _ _, _
  | .drained, _ | .halted, _ | .rangeCleared, _ | .scheduledCleared, _ => fun _ _ h => h

/-! ### What a route does -/

/-- What can happen to a route. -/
def RouteStage.Moves : RouteStage → RouteStage → Prop
  | .joining, _ => True
  | .rejected, stage => stage = .rejected ∨ stage = .closed
  | .established, stage => stage = .established ∨ stage = .closed
  | .closed, stage => stage = .closed

theorem RouteStage.Moves.refl : ∀ stage : RouteStage, stage.Moves stage
  | .joining => trivial
  | .rejected | .established => .inl rfl
  | .closed => rfl

theorem RouteStage.Moves.closed : ∀ stage : RouteStage, stage.Moves .closed
  | .joining => trivial
  | .rejected | .established => .inr rfl
  | .closed => rfl

end Rnet.Game.SendCalls
