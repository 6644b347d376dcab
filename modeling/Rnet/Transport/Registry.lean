import Rnet.Core.Basic
import Rnet.Lib.FiniteMap
import Rnet.Lib.GuardedRun

/-! # The endpoint and session tables under concurrent calls

`NetworkRuntime` is shared between threads. A call that opens an endpoint, a call of
`close_endpoint`, the worker of the endpoint and a call of `stop` each touch the two tables several
times, and other threads run between two of these accesses. A step here is what one of them does
under one lock, or with one atomic operation.

What concerns one endpoint is kept together in its `Site`: its entry in the endpoint table, how far
the call that opened it has come, how far the `close_endpoint` that removed it has come (there is at
most one, since only one removal finds the entry), and its task. Handles are never reused. A task
that was aborted still runs to its next await point, where it ends. -/

namespace Rnet.Transport.Registry

open Rnet.Core Lib.FiniteMap Lib.GuardedRun

/-- States of the runtime. -/
inductive Lifecycle
  | created | running | draining | stopped
  deriving DecidableEq

/-- The worker an endpoint is opened with. -/
inductive EndpointKind
  | tcpListener | tcpClient | datagramListener | datagramClient
  deriving DecidableEq

/-- A client endpoint gets its session from the call that opens it. -/
def EndpointKind.client : EndpointKind → Bool
  | .tcpClient | .datagramClient => true
  | .tcpListener | .datagramListener => false

structure Route where
  endpoint : Handle
  established : Bool
  deriving DecidableEq

/-- What a call that opens an endpoint does next, once it inserted the endpoint. -/
inductive OpenStage
  | reserve
  | insertSession
  | publish (session : Option Handle)
  | discardSession (session : Handle) (error : RnetError)
  | discardEndpoint (error : RnetError)
  | register
  | start
  | returned (result : Result Unit)
  deriving DecidableEq

/-- What a `close_endpoint` does next, once it removed the endpoint: abort the task if its handle
was registered, collect the handles of the endpoint's sessions, remove these sessions. -/
inductive CloseStage
  | abort (registered : Bool)
  | scan
  | sessions (handles : List Handle)
  deriving DecidableEq

/-- Where the task of an endpoint stands. It is `waiting` until the opening call starts it and
`suspended` at every later await point; `admitted` is a TCP listener about to take the endpoint
lock, `reserved` a datagram listener inside `insert_session_route`. -/
inductive TaskStage
  | unspawned | waiting | suspended | running | admitted | reserved | ended
  deriving DecidableEq

/-- Task of an endpoint. -/
structure Task where
  stage : TaskStage
  aborted : Bool
  deriving DecidableEq

/-- Everything about one endpoint. `record` is its entry in the endpoint table, with whether an
abort handle is registered there. Two fields only observe: `closed` says that a `close_endpoint`
returned, `won` that the task was registered while no `stop` had returned. -/
structure Site where
  kind : EndpointKind
  record : Option Bool
  opening : OpenStage
  closing : Option CloseStage
  task : Task
  closed : Bool
  won : Bool
  deriving DecidableEq

/-- An endpoint just inserted; the call that inserted it goes on with its session if it is a
client. -/
def Site.opened (kind : EndpointKind) : Site where
  kind := kind
  record := some false
  opening := if kind.client then .reserve else .publish none
  closing := none
  task := ⟨.unspawned, false⟩
  closed := false
  won := false

structure Tables where
  maxEndpoints : ℕ
  maxPendingHandshakes : ℕ
  sites : Table Handle Site
  sessions : Table Handle Route
  nextEndpoint : Handle
  nextSession : Handle
  pendingHandshakes : ℕ

namespace Tables

variable (t : Tables) (e : Handle)

def set (site : Site) : Tables :=
  { t with sites := t.sites.insert e site }

def endpoints : ℕ := countP t.sites fun _ site => site.record.isSome

/-- Second half of `insert_session_route`. -/
def insertRoute : Tables :=
  { t with
    sessions := t.sessions.insert t.nextSession ⟨e, false⟩
    nextSession := t.nextSession + 1 }

/-- Removes sessions, with `release_pending_session` for each route found. -/
def removeSessions (gone : Handle → Route → Bool) : Tables :=
  { t with
    sessions := filter t.sessions fun h r => !gone h r
    pendingHandshakes :=
      t.pendingHandshakes - countP t.sessions fun h r => gone h r && !r.established }

def sessionsOf : List Handle :=
  ((t.sessions.entries.filter fun entry => entry.2.endpoint == e).map fun entry => entry.1)

def handles : List Handle :=
  ((t.sites.entries.filter fun entry => entry.2.record.isSome).map fun entry => entry.1)

def handshakeLimit : RnetError := ⟨.wouldBlock, "runtime pending-handshake limit reached"⟩
def endpointLimit : RnetError := ⟨.wouldBlock, "runtime endpoint limit reached"⟩
def queueFull : RnetError := ⟨.wouldBlock, "event queue is full"⟩
def invalidEndpoint : RnetError := ⟨.invalidHandle, "invalid endpoint"⟩

/-! ### Opening an endpoint -/

/-- A new endpoint within the limit. -/
def insertEndpoint (kind : EndpointKind) : Result (Tables × Handle) :=
  if t.maxEndpoints ≤ t.endpoints then .error endpointLimit
  else
    .ok ({ t with
        sites := t.sites.insert t.nextEndpoint (.opened kind)
        nextEndpoint := t.nextEndpoint + 1 }, t.nextEndpoint)

/-- The rest of `open_adaptive_datagram_candidates`, `open_adaptive_tcp_listener` and
`open_adaptive_tcp_client_with_timeout`, one access at a time: `insert_pending_session` (clients
only), `push_endpoint_opened` and the clean-up of both, the spawn and `set_endpoint_abort`, and
`start.send`. `room` says that the event queue takes the event. -/
def advanceOpening (stopReturned : Bool) (e : Handle) (site : Site) (room : Bool) : Tables :=
  match site.opening with
  | .reserve =>
    if t.maxPendingHandshakes ≤ t.pendingHandshakes then
      t.set e { site with opening := .discardEndpoint handshakeLimit }
    else
      { t with pendingHandshakes := t.pendingHandshakes + 1 }.set e
        { site with opening := .insertSession }
  | .insertSession => (t.insertRoute e).set e { site with opening := .publish (some t.nextSession) }
  | .publish session =>
    if room then t.set e { site with opening := .register, task := ⟨.waiting, false⟩ }
    else
      t.set e { site with opening := match session with
        | some session => .discardSession session queueFull
        | none => .discardEndpoint queueFull }
  | .discardSession session error =>
    (t.removeSessions fun h _ => h == session).set e { site with opening := .discardEndpoint error }
  | .discardEndpoint error =>
    t.set e { site with record := none, opening := .returned (.error error) }
  | .register =>
    if site.record.isSome then
      t.set e { site with record := some true, opening := .start, won := !stopReturned }
    else
      -- a close won the race: the task is aborted, its session is left to the close
      t.set e { site with
        task := { site.task with aborted := true }
        opening := .returned (.error invalidEndpoint) }
  | .start =>
    t.set e { site with
      task := { site.task with stage :=
        if site.task.stage = .waiting then .suspended else site.task.stage }
      opening := .returned (.ok ()) }
  | .returned _ => t

/-! ### Closing an endpoint -/

/-- The removal at the start of `close_endpoint`; without an entry it is `InvalidHandle`. -/
def removeEndpoint (site : Site) : Tables :=
  match site.record with
  | none => t
  | some registered => t.set e { site with record := none, closing := some (.abort registered) }

/-- One step of `close_endpoint`. -/
def advanceClosing (site : Site) : Tables :=
  match site.closing with
  | none => t
  | some (.abort registered) =>
    t.set e { site with
      task := { site.task with aborted := site.task.aborted || registered }
      closing := some .scan }
  | some .scan => t.set e { site with closing := some (.sessions (t.sessionsOf e)) }
  | some (.sessions handles) =>
    (t.removeSessions fun h _ => handles.contains h).set e { site with closing := none, closed := true }

/-! ### The task of an endpoint -/

def setStage (site : Site) (stage : TaskStage) : Tables :=
  t.set e { site with task := { site.task with stage := stage } }

/-- The admission of `run_adaptive_tcp_listener` under the endpoint lock. -/
def accept (site : Site) : Tables :=
  if site.record.isNone then t.setStage e site .ended
  else if t.maxPendingHandshakes ≤ t.pendingHandshakes then t.setStage e site .running
  else
    ({ t with pendingHandshakes := t.pendingHandshakes + 1 }.insertRoute e).setStage e site .running

/-- First half of `insert_session_route` in the `ServerFinish` arm of `process`. -/
def reserve (site : Site) : Tables :=
  if t.maxPendingHandshakes ≤ t.pendingHandshakes then t
  else { t with pendingHandshakes := t.pendingHandshakes + 1 }.setStage e site .reserved

/-- `fail_endpoint`, called by the task that is about to end; the endpoint lock is held until the
sessions are closed. -/
def failEndpoint (site : Site) : Tables :=
  if site.record.isNone then t.setStage e site .ended
  else
    (t.removeSessions fun _ r => r.endpoint == e).set e { site with
      record := none
      task := { site.task with stage := .ended } }

/-- Steps at one endpoint. -/
inductive Action
  | opening (room : Bool)
  | closeEndpoint | closing
  | wake | suspend | admission | accept | reserve | register | fail | cancel
  deriving DecidableEq

/-- One access to the tables for the endpoint `e`; what its thread is not about to do changes
nothing. -/
def act (lifecycle : Lifecycle) (stopReturned : Bool) (e : Handle) (action : Action) : Tables :=
  match t.sites.lookup e with
  | none => t
  | some site =>
    match action with
    | .opening room => t.advanceOpening stopReturned e site room
    | .closeEndpoint => t.removeEndpoint e site
    | .closing => t.advanceClosing e site
    | .wake =>
      if site.task.stage = .suspended ∧ site.task.aborted = false then t.setStage e site .running
      else t
    | .suspend => if site.task.stage = .running then t.setStage e site .suspended else t
    | .admission =>
      if site.kind = .tcpListener ∧ site.task.stage = .running ∧ lifecycle = .running then
        t.setStage e site .admitted
      else t
    | .accept => if site.task.stage = .admitted then t.accept e site else t
    | .reserve =>
      if site.kind = .datagramListener ∧ site.task.stage = .running then t.reserve e site else t
    | .register =>
      if site.task.stage = .reserved then (t.insertRoute e).setStage e site .running else t
    | .fail => if site.task.stage = .running then t.failEndpoint e site else t
    | .cancel =>
      if (site.task.stage = .suspended ∨ site.task.stage = .waiting) ∧ site.task.aborted = true then
        t.setStage e site .ended
      else t

def establish (h : Handle) : Tables :=
  match t.sessions.lookup h with
  | none => t
  | some route =>
    { t with
      sessions := t.sessions.insert h { route with established := true }
      pendingHandshakes :=
        if route.established then t.pendingHandshakes else t.pendingHandshakes - 1 }

def closeSession (h : Handle) : Tables := t.removeSessions fun h' _ => h' == h

end Tables

/-! ### Calls -/

inductive Entry
  | listen | connect | connectHost | connectResolved
  deriving DecidableEq

/-- How far such a call has come. -/
inductive CallStage
  | check
  | bind
  | insertEndpoint
  | opening (e : Handle)
  | returned (result : Result Handle)
  deriving DecidableEq

/-- A call in progress. -/
structure Caller where
  kind : EndpointKind
  further : ℕ
  stage : CallStage
  deriving DecidableEq

/-- What the environment does to a call: its argument checks, name resolution, bind and connect
succeed or fail, or the deadline over several TCP addresses has passed. -/
inductive Attempt
  | succeeds
  | fails (error : RnetError)
  | expired
  deriving DecidableEq

/-- What a call of `stop` does next. `begin` is `begin_draining` after its load, `mark` and
`markSwap` are `mark_stopped`; `waiting` is inside `close_endpoint` of that endpoint. -/
inductive StopStage
  | load
  | begin
  | swap
  | collect
  | removing (rest : List Handle)
  | waiting (e : Handle) (rest : List Handle)
  | mark
  | markSwap
  | emit
  | returned (result : Result Unit)
  deriving DecidableEq

/-- The runtime with the calls in progress. Two fields only observe: `collected` says that a `stop`
has taken its list of endpoints, `stopReturned` that one has returned `Ok`. -/
structure Runtime where
  lifecycle : Lifecycle
  tables : Tables
  callers : Table ℕ Caller
  stops : Table ℕ StopStage
  collected : Bool
  stopReturned : Bool

/-- A call starts, an endpoint or a session sees something, a call goes on. -/
inductive Input
  | call (id : ℕ) (entry : Entry) (kind : EndpointKind) (further : ℕ)
  | caller (id : ℕ) (attempt : Attempt)
  | endpoint (e : Handle) (action : Tables.Action)
  | establish (session : Handle)
  | closeSession (session : Handle)
  | stop (id : ℕ) (representable : Bool)
  | advanceStop (id : ℕ)

namespace Runtime

def setCaller (s : Runtime) (id : ℕ) (c : Caller) : Runtime :=
  { s with callers := s.callers.insert id c }

def setStop (s : Runtime) (id : ℕ) (stage : StopStage) : Runtime :=
  { s with stops := s.stops.insert id stage }

def notAccepting : RnetError := ⟨.invalidState, "runtime is not accepting endpoints"⟩
def deadlineExpired : RnetError := ⟨.timeout, "TCP multi-address connection deadline expired"⟩
def invalidTransition : RnetError := ⟨.invalidState, "invalid runtime state transition"⟩
def cannotDrain : RnetError := ⟨.invalidState, "runtime cannot begin draining from this state"⟩
def cannotStop : RnetError := ⟨.invalidState, "runtime cannot stop from this state"⟩
def notStarted : RnetError := ⟨.invalidState, "runtime was not started"⟩
def invalidDeadline : RnetError := ⟨.invalidArgument, "drain timeout cannot form a valid deadline"⟩

/-- `listen` and `connect` start with the lifecycle check of `open_endpoint`; `connect_host` and
`connect_resolved` go to the sockets directly and may hold several TCP addresses. -/
def call (s : Runtime) (id : ℕ) (entry : Entry) (kind : EndpointKind) (further : ℕ) : Runtime :=
  match s.callers.lookup id, entry with
  | some _, _ => s
  | none, .listen => if kind.client then s else s.setCaller id ⟨kind, 0, .check⟩
  | none, .connect => if kind.client then s.setCaller id ⟨kind, 0, .check⟩ else s
  | none, .connectHost | none, .connectResolved =>
    if kind.client then
      s.setCaller id ⟨kind, if kind = .tcpClient then further else 0, .bind⟩
    else s

/-- An attempt failed: the next address of `connect_tcp_candidates`, or the error. -/
def attemptFailed (c : Caller) (error : RnetError) : Caller :=
  match c.further with
  | 0 => { c with stage := .returned (.error error) }
  | n + 1 => { c with further := n, stage := .bind }

/-- One step of a call that opens an endpoint. -/
def advanceCaller (s : Runtime) (id : ℕ) (c : Caller) (attempt : Attempt) : Runtime :=
  match c.stage with
  | .check =>
    if s.lifecycle = .running then
      match attempt with
      | .fails error => s.setCaller id { c with stage := .returned (.error error) }
      | _ => s.setCaller id { c with stage := .bind }
    else s.setCaller id { c with stage := .returned (.error notAccepting) }
  | .bind =>
    match attempt with
    | .succeeds => s.setCaller id { c with stage := .insertEndpoint }
    | .fails error => s.setCaller id (attemptFailed c error)
    | .expired => s.setCaller id { c with stage := .returned (.error deadlineExpired) }
  | .insertEndpoint =>
    match s.tables.insertEndpoint c.kind with
    | .error error => s.setCaller id (attemptFailed c error)
    | .ok (tables, e) => { s with tables := tables }.setCaller id { c with stage := .opening e }
  | .opening e =>
    match (s.tables.sites.lookup e).map Site.opening with
    | some (.returned (.ok ())) => s.setCaller id { c with stage := .returned (.ok e) }
    | some (.returned (.error error)) => s.setCaller id (attemptFailed c error)
    | _ => s
  | .returned _ => s

/-- One access of a `stop` call. The wait for sessions to disappear has no effect on the tables and
may end at any time, so it lies in when `collect` happens. -/
def advanceStop (s : Runtime) (id : ℕ) (stage : StopStage) : Runtime :=
  match stage with
  | .load =>
    match s.lifecycle with
    | .stopped => s.setStop id .emit
    | .running => s.setStop id .begin
    | .draining => s.setStop id .collect
    | .created => s.setStop id (.returned (.error notStarted))
  | .begin =>
    match s.lifecycle with
    | .running => s.setStop id .swap
    | .draining => s.setStop id .collect
    | _ => s.setStop id (.returned (.error cannotDrain))
  | .swap =>
    if s.lifecycle = .running then { s with lifecycle := .draining }.setStop id .collect
    else s.setStop id (.returned (.error invalidTransition))
  | .collect => { s with collected := true }.setStop id (.removing s.tables.handles)
  | .removing [] => s.setStop id .mark
  | .removing (e :: rest) =>
    match s.tables.sites.lookup e with
    | none => s.setStop id (.removing rest)
    | some site =>
      if site.record.isSome then
        { s with tables := s.tables.removeEndpoint e site }.setStop id (.waiting e rest)
      else s.setStop id (.removing rest)
  | .waiting e rest =>
    if (s.tables.sites.lookup e).any fun site => site.closing.isSome then s
    else s.setStop id (.removing rest)
  | .mark =>
    match s.lifecycle with
    | .draining => s.setStop id .markSwap
    | .stopped => s.setStop id .emit
    | _ => s.setStop id (.returned (.error cannotStop))
  | .markSwap =>
    if s.lifecycle = .draining then { s with lifecycle := .stopped }.setStop id .emit
    else s.setStop id (.returned (.error invalidTransition))
  | .emit => { s with stopReturned := true }.setStop id (.returned (.ok ()))
  | .returned _ => s

def step (s : Runtime) : Input → Runtime
  | .call id entry kind further => s.call id entry kind further
  | .caller id attempt =>
    match s.callers.lookup id with
    | none => s
    | some c => s.advanceCaller id c attempt
  | .endpoint e action =>
    { s with tables := s.tables.act s.lifecycle s.stopReturned e action }
  | .establish h => { s with tables := s.tables.establish h }
  | .closeSession h => { s with tables := s.tables.closeSession h }
  | .stop id representable =>
    if (s.stops.lookup id).isSome then s
    else s.setStop id (if representable then .load else .returned (.error invalidDeadline))
  | .advanceStop id =>
    match s.stops.lookup id with
    | none => s
    | some stage => s.advanceStop id stage

/-- `new_with_client_security` leaves the runtime running with empty tables. -/
def new (maxEndpoints maxPendingHandshakes : ℕ) : Runtime where
  lifecycle := .running
  tables := ⟨maxEndpoints, maxPendingHandshakes, ∅, ∅, 1, 1, 0⟩
  callers := ∅
  stops := ∅
  collected := false
  stopReturned := false

/-- The runtime with every schedule of its calls, tasks and sessions. -/
def machine : Machine Runtime Input where
  init s := ∃ maxEndpoints maxPendingHandshakes, s = new maxEndpoints maxPendingHandshakes
  step := step

end Runtime

end Rnet.Transport.Registry
