import Rnet.Core.Basic
import Rnet.Lib.KeyedQueues

/-! # Weighted scheduler of game sends

Four priority classes, each a round robin over the sessions with a message in it, and a cursor that
walks the weighted order of the classes and skips empty ones. A message stays in the totals while the
transport is asked to take it: `pop_next` does not release it, the answer does. `none` is an `expect`
that fails. Delays of forwarded messages are not modelled. -/

namespace Rnet.Game.Scheduler

open Rnet.Core Lib.BigEndian Lib.FiniteMap Lib.KeyedQueues

/-- Bytes reserved for the envelope. -/
def envelopeReservation : ℕ := 16

/-- Priority classes. -/
inductive GamePriority
  | low | normal | high | critical
  deriving DecidableEq

/-- One round of the classes. -/
def weightedOrder : List GamePriority :=
  [.critical, .critical, .critical, .critical, .critical, .critical, .critical, .critical,
    .high, .high, .high, .high, .normal, .normal, .low]

/-- Limits of the scheduler. -/
structure ScheduledQueueConfig where
  maxQueuedBytes : ℕ
  maxSessionQueuedBytes : ℕ
  maxQueuedMessages : ℕ
  flushBatch : ℕ

/-- A message that waits for its turn. -/
structure ScheduledMessage where
  session : Handle
  payload : Bytes
  sequence : Option UInt32
  tick : Option UInt32
  correlationId : UInt64
  priority : GamePriority
  expiresAt : Option Instant
  deriving DecidableEq

/-- Bytes a message counts for. -/
def ScheduledMessage.reservedBytes (m : ScheduledMessage) : ℕ :=
  min (m.payload.length + envelopeReservation) u64Max

def satAdd (c n : ℕ) : ℕ := min (c + n) u64Max

/-- Counters of the scheduler. -/
structure ScheduledQueueSnapshot where
  queuedMessages : ℕ := 0
  queuedBytes : ℕ := 0
  admissionRejected : ℕ := 0
  expiredDropped : ℕ := 0
  closedDropped : ℕ := 0
  sendFailed : ℕ := 0
  forwarded : ℕ := 0
  backpressureRequeued : ℕ := 0
  admittedByPriority : GamePriority → ℕ := fun _ => 0
  forwardedByPriority : GamePriority → ℕ := fun _ => 0

def bump (counters : GamePriority → ℕ) (p : GamePriority) : GamePriority → ℕ :=
  Function.update counters p (satAdd (counters p) 1)

/-- One class: the sessions with a message in it take turns. -/
abbrev FairPriorityQueue := RoundRobin Handle ScheduledMessage

/-- Appends to the queue of the session. -/
def FairPriorityQueue.push (q : FairPriorityQueue) (m : ScheduledMessage) : FairPriorityQueue :=
  RoundRobin.push q m.session m

/-- The scheduler. -/
structure ScheduledQueue where
  queues : GamePriority → FairPriorityQueue
  sessionBytes : Table Handle ℕ
  maxTotalBytes : ℕ
  maxSessionBytes : ℕ
  maxMessages : ℕ
  cursor : ℕ
  counters : ScheduledQueueSnapshot

namespace ScheduledQueue

/-- An empty scheduler; the limits are checked. -/
def fromConfig (config : ScheduledQueueConfig) : Result ScheduledQueue :=
  if config.maxQueuedBytes = 0 ∨ config.maxSessionQueuedBytes = 0 ∨
      config.maxQueuedBytes < config.maxSessionQueuedBytes ∨ config.maxQueuedMessages = 0 ∨
      config.flushBatch = 0 then
    .error ⟨.invalidArgument, "invalid scheduled queue limits"⟩
  else
    .ok ⟨fun _ => .empty _ _, ∅, config.maxQueuedBytes, config.maxSessionQueuedBytes,
      config.maxQueuedMessages, 0, {}⟩

def bytesOf (q : ScheduledQueue) (session : Handle) : ℕ := (q.sessionBytes.lookup session).getD 0

/-- Whether a message fits into the budgets; the sums are checked. -/
def fits (q : ScheduledQueue) (m : ScheduledMessage) : Bool :=
  q.counters.queuedMessages < q.maxMessages &&
    (q.counters.queuedBytes + m.reservedBytes ≤ u64Max &&
      q.counters.queuedBytes + m.reservedBytes ≤ q.maxTotalBytes) &&
    (q.bytesOf m.session + m.reservedBytes ≤ u64Max &&
      q.bytesOf m.session + m.reservedBytes ≤ q.maxSessionBytes)

def stage (q : ScheduledQueue) (m : ScheduledMessage) : ScheduledQueue :=
  { q with queues := Function.update q.queues m.priority ((q.queues m.priority).push m) }

/-- Admits a message within the limits. -/
def enqueue (q : ScheduledQueue) (m : ScheduledMessage) : ScheduledQueue × Result Unit :=
  if q.fits m then
    (stage { q with
      sessionBytes := q.sessionBytes.insert m.session (q.bytesOf m.session + m.reservedBytes)
      counters := { q.counters with
        queuedMessages := q.counters.queuedMessages + 1
        queuedBytes := q.counters.queuedBytes + m.reservedBytes
        admittedByPriority := bump q.counters.admittedByPriority m.priority } } m, .ok ())
  else
    ({ q with counters := { q.counters with
      admissionRejected := satAdd q.counters.admissionRejected 1 } },
      .error ⟨.wouldBlock, "scheduled game queue budget is full"⟩)

/-- A message no longer counts. -/
def release (q : ScheduledQueue) (m : ScheduledMessage) : ScheduledQueue :=
  { q with
    counters := { q.counters with
      queuedMessages := q.counters.queuedMessages - 1
      queuedBytes := q.counters.queuedBytes - m.reservedBytes }
    sessionBytes :=
      match q.sessionBytes.lookup m.session with
      | none => q.sessionBytes
      | some bytes =>
        if bytes - m.reservedBytes = 0 then q.sessionBytes.erase m.session
        else q.sessionBytes.insert m.session (bytes - m.reservedBytes) }

def turn (q : ScheduledQueue) : GamePriority := weightedOrder.getD q.cursor .low

/-- The next message in weighted order, in at most `slots` turns. -/
def select : ℕ → ScheduledQueue → Option (ScheduledQueue × Option ScheduledMessage)
  | 0, q => some (q, none)
  | slots + 1, q =>
    match (q.queues q.turn).pop with
    | none => none
    | some (_, none) => select slots { q with cursor := (q.cursor + 1) % weightedOrder.length }
    | some (class', some m) =>
      some ({ q with
        cursor := (q.cursor + 1) % weightedOrder.length
        queues := Function.update q.queues q.turn class' }, some m)

def expired (now : Instant) (m : ScheduledMessage) : Bool :=
  m.expiresAt.any fun deadline => deadline ≤ now

def dropExpired (q : ScheduledQueue) (m : ScheduledMessage) : ScheduledQueue :=
  let q := q.release m
  { q with counters := { q.counters with expiredDropped := satAdd q.counters.expiredDropped 1 } }

/-- The loop of `pop_next`: expired messages are dropped on the way. -/
def popLoop (now : Instant) : ℕ → ScheduledQueue → Option (ScheduledQueue × Option ScheduledMessage)
  | 0, _ => none
  | fuel + 1, q =>
    match select weightedOrder.length q with
    | none => none
    | some (q, none) => some (q, none)
    | some (q, some m) =>
      if expired now m then popLoop now fuel (q.dropExpired m) else some (q, some m)

variable (q : ScheduledQueue) (m : ScheduledMessage)

def weigh (f : ScheduledMessage → ℕ) (q : ScheduledQueue) : ℕ :=
  RoundRobin.weigh f (q.queues .low) + RoundRobin.weigh f (q.queues .normal) +
    RoundRobin.weigh f (q.queues .high) + RoundRobin.weigh f (q.queues .critical)

/-- `pop_next`: every turn of the loop takes a staged message. -/
def popNext (now : Instant) : Option (ScheduledQueue × Option ScheduledMessage) :=
  popLoop now (q.weigh (fun _ => 1) + 1) q

/-- A message the network did not take waits again. -/
def requeue : ScheduledQueue :=
  stage { q with counters := { q.counters with
    backpressureRequeued := satAdd q.counters.backpressureRequeued 1 } } m

def lengthOf (session : Handle) : ℕ :=
  ((q.queues .low).line session).length + ((q.queues .normal).line session).length +
    ((q.queues .high).line session).length + ((q.queues .critical).line session).length

/-- Drops the messages of a session. -/
def forgetSession (session : Handle) : ScheduledQueue :=
  { q with
    queues := fun p => (q.queues p).remove session
    sessionBytes := q.sessionBytes.erase session
    counters := { q.counters with
      queuedBytes := q.counters.queuedBytes - q.bytesOf session
      queuedMessages := q.counters.queuedMessages - q.lengthOf session
      closedDropped := satAdd q.counters.closedDropped (q.lengthOf session) } }

/-- A message was sent. -/
def recordForwarded : ScheduledQueue :=
  let q := q.release m
  { q with counters := { q.counters with
    forwarded := satAdd q.counters.forwarded 1
    forwardedByPriority := bump q.counters.forwardedByPriority m.priority } }

/-- A message could not be sent. -/
def recordSendFailed : ScheduledQueue :=
  let q := q.release m
  { q with counters := { q.counters with sendFailed := satAdd q.counters.sendFailed 1 } }

/-- Drops all messages. -/
def clear : ScheduledQueue :=
  { q with
    queues := fun _ => .empty _ _
    sessionBytes := ∅
    counters := { q.counters with
      queuedMessages := 0
      queuedBytes := 0
      closedDropped := satAdd q.counters.closedDropped q.counters.queuedMessages } }

end ScheduledQueue

end Rnet.Game.Scheduler
