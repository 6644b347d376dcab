import Rnet.Core.Basic
import Rnet.Lib.GuardedRun

/-! # Heartbeats

The tracker of a session sends one challenge at a time and measures the round trip of the
acknowledgement. Times are nanoseconds of the local clock. A run takes the calls of a tracker in any
order with any times; the log beside it holds the challenges that were sent and the acknowledgements
that were accepted, newest first. -/

namespace Rnet.Game.Heartbeat

open Rnet.Core Lib.GuardedRun

def durationMax : ℕ := 2 ^ 64 * 10 ^ 9 - 1

/-- No instant is later: its seconds are an `i64`. -/
def instantMax : ℕ := 2 ^ 63 * 10 ^ 9

/-- What an acknowledgement tells of the connection. -/
structure QualitySample where
  lastRtt : ℕ
  smoothedRtt : ℕ
  jitter : ℕ
  samples : ℕ
  deriving DecidableEq

/-- The tracker of one session, without the gate of its quality notifications. -/
structure HeartbeatTracker where
  interval : ℕ
  timeout : ℕ
  lastAck : ℕ
  lastInboundProbe : Option ℕ
  pending : Option (UInt64 × ℕ)
  sample : Option QualitySample
  deriving DecidableEq

namespace HeartbeatTracker

variable (t : HeartbeatTracker) (challenge : UInt64) (now : ℕ)

/-- A tracker; the timeout is at least the interval. -/
def new (interval timeout now : ℕ) : Result HeartbeatTracker :=
  if interval = 0 ∨ timeout = 0 ∨ timeout < interval then
    .error ⟨.invalidArgument, "heartbeat timeout must be at least the nonzero interval"⟩
  else .ok ⟨interval, timeout, now, none, none, none⟩

/-- A probe is due. -/
def shouldProbe : Bool :=
  t.pending.isNone && t.interval ≤ now - t.lastAck

/-- Probes of the other side are spaced. -/
def admitProbe (receivedAt : ℕ) : HeartbeatTracker × Bool :=
  let spacing := max (t.interval / 4) 1000000
  if t.lastInboundProbe.any fun last => receivedAt < last || receivedAt - last < spacing then (t, false)
  else ({ t with lastInboundProbe := some receivedAt }, true)

/-- A probe that was due is outstanding. -/
def markSent : HeartbeatTracker × Result Unit :=
  if !t.shouldProbe now then
    (t, .error ⟨.invalidState, "heartbeat probe is not due or another probe is pending"⟩)
  else ({ t with pending := some (challenge, now) }, .ok ())

/-- The moving averages after one more round trip. -/
def sampled (previous : Option QualitySample) (rtt : ℕ) : QualitySample :=
  match previous with
  | none => ⟨rtt, rtt, 0, 1⟩
  | some q =>
    let delta := max rtt q.lastRtt - min rtt q.lastRtt
    { lastRtt := rtt
      smoothedRtt := min (q.smoothedRtt - q.smoothedRtt / 8 + rtt / 8) durationMax
      jitter := min (q.jitter - q.jitter / 16 + delta / 16) durationMax
      samples := min (q.samples + 1) u64Max }

theorem lastRtt_sampled (previous : Option QualitySample) (rtt : ℕ) :
    (sampled previous rtt).lastRtt = rtt := by
  cases previous <;> rfl

/-- The answer to the outstanding probe. -/
def acceptAck (receivedAt processedAt : ℕ) : HeartbeatTracker × Option QualitySample :=
  match t.pending with
  | none => (t, none)
  | some (expected, sentAt) =>
    if receivedAt < sentAt ∨ processedAt < receivedAt then (t, none)
    else if expected ≠ challenge ∨ t.timeout ≤ receivedAt - sentAt then (t, none)
    else
      let sample := sampled t.sample (receivedAt - sentAt)
      ({ t with pending := none, lastAck := processedAt, sample := some sample }, some sample)

theorem acceptAck_cases (receivedAt processedAt : ℕ) :
    t.acceptAck challenge receivedAt processedAt = (t, none) ∨
      ∃ sentAt, t.pending = some (challenge, sentAt) ∧ receivedAt - sentAt < t.timeout ∧
        t.acceptAck challenge receivedAt processedAt =
          ({ t with pending := none, lastAck := processedAt,
                    sample := some (sampled t.sample (receivedAt - sentAt)) },
            some (sampled t.sample (receivedAt - sentAt))) := by
  unfold acceptAck
  split
  · exact .inl rfl
  · rename_i expected sentAt hp
    split_ifs with hb hc
    · exact .inl rfl
    · exact .inl rfl
    · simp only [not_or, not_not, not_le] at hc
      exact .inr ⟨sentAt, by rw [hp, hc.1], hc.2, rfl⟩

/-- The other side has been silent too long. -/
def timedOut : Bool :=
  match t.pending with
  | some (_, sentAt) => t.timeout ≤ now - sentAt
  | none => min (t.interval + t.timeout) durationMax ≤ now - t.lastAck

end HeartbeatTracker

open HeartbeatTracker

/-! ### Runs -/

/-- An accepted acknowledgement. -/
structure Ack where
  challenge : UInt64
  rtt : ℕ
  processedAt : ℕ

structure World where
  tracker : HeartbeatTracker
  created : ℕ
  sent : List UInt64
  acks : List Ack

/-- Calls of the tracker. -/
inductive Input
  | admitProbe (receivedAt : ℕ)
  | markSent (challenge : UInt64) (now : ℕ)
  | acceptAck (challenge : UInt64) (receivedAt processedAt : ℕ)

def World.step (w : World) : Input → World
  | .admitProbe receivedAt => { w with tracker := (w.tracker.admitProbe receivedAt).1 }
  | .markSent challenge now =>
    match w.tracker.markSent challenge now with
    | (tracker, .error _) => { w with tracker := tracker }
    | (tracker, .ok ()) => { w with tracker := tracker, sent := challenge :: w.sent }
  | .acceptAck challenge receivedAt processedAt =>
    match w.tracker.acceptAck challenge receivedAt processedAt with
    | (tracker, none) => { w with tracker := tracker }
    | (tracker, some q) =>
      { w with tracker := tracker, acks := ⟨challenge, q.lastRtt, processedAt⟩ :: w.acks }

def machine : Machine World Input where
  init w := ∃ interval timeout now tracker, interval ≤ durationMax ∧ timeout ≤ durationMax ∧
    HeartbeatTracker.new interval timeout now = .ok tracker ∧ w = ⟨tracker, now, [], []⟩
  step := World.step

/-- When the last accepted acknowledgement was processed, or the tracker was created. -/
def World.lastProcessed (w : World) : ℕ := (w.acks.head?.map (·.processedAt)).getD w.created

/-- What the averages say about the round trips they were computed from. -/
structure Averages (q : QualitySample) (rtts : List ℕ) : Prop where
  last : rtts.head? = some q.lastRtt
  smoothed : ∀ lo hi, (∀ r ∈ rtts, lo ≤ r ∧ r ≤ hi) → lo ≤ q.smoothedRtt ∧ q.smoothedRtt ≤ hi
  jitter : ∀ d, rtts.IsChain (fun a b => a ≤ b + d ∧ b ≤ a + d) → q.jitter ≤ d

/-- A floored share is given up and a floored share of the new value is added: between bounds of both
values this stays within them. -/
theorem averages_sampled (hq : ∀ q, previous = some q → Averages q rtts)
    (hn : previous = none → rtts = []) (hr : rtt ≤ durationMax) :
    Averages (sampled previous rtt) (rtt :: rtts) := by
  cases previous with
  | none =>
    refine ⟨rfl, fun lo hi h => h rtt List.mem_cons_self, fun d _ => Nat.zero_le d⟩
  | some q =>
    have h := hq q rfl
    refine ⟨rfl, fun lo hi hb => ?_, fun d hc => ?_⟩
    · obtain ⟨hlo, hhi⟩ := hb rtt List.mem_cons_self
      have hs := h.smoothed lo hi fun r hr => hb r (List.mem_cons_of_mem _ hr)
      simp only [sampled]
      omega
    · obtain ⟨rest, rfl⟩ : ∃ rest, rtts = q.lastRtt :: rest := by
        have hl := h.last
        cases rtts with
        | nil => cases hl
        | cons r rest => cases hl; exact ⟨rest, rfl⟩
      obtain ⟨hd, hc⟩ := List.isChain_cons_cons.mp hc
      have hj := h.jitter d hc
      simp only [sampled]
      omega

structure Sound (w : World) : Prop where
  positive : 0 < w.tracker.interval ∧ 0 < w.tracker.timeout ∧ w.tracker.timeout ≤ durationMax
  sent : w.sent = (w.tracker.pending.map Prod.fst).toList ++ w.acks.map (·.challenge)
  processed : w.tracker.lastAck = w.lastProcessed
  pending : ∀ p, w.tracker.pending = some p → w.tracker.lastAck + w.tracker.interval ≤ p.2
  rtt : ∀ a ∈ w.acks, a.rtt < w.tracker.timeout
  averages : ∀ q, w.tracker.sample = some q → Averages q (w.acks.map (·.rtt))
  measured : w.tracker.sample = none → w.acks = []

theorem sound_markSent (h : Sound w) (challenge : UInt64) (now : ℕ) :
    Sound (w.step (.markSent challenge now)) := by
  unfold World.step markSent
  dsimp only
  split_ifs with hs
  · exact h
  simp only [shouldProbe, Bool.not_eq_true', Bool.not_eq_false, Bool.and_eq_true,
    Option.isNone_iff_eq_none, decide_eq_true_eq] at hs
  refine ⟨h.positive, ?_, h.processed, ?_, h.rtt, h.averages, h.measured⟩
  · rw [h.sent, hs.1]
    rfl
  · rintro p ⟨⟩
    have hp := h.positive.1
    have hi := hs.2
    dsimp only
    omega

theorem sound_acceptAck (h : Sound w) (challenge : UInt64) (receivedAt processedAt : ℕ) :
    Sound (w.step (.acceptAck challenge receivedAt processedAt)) := by
  unfold World.step
  dsimp only
  rcases w.tracker.acceptAck_cases challenge receivedAt processedAt with
    he | ⟨sentAt, hp, hlt, he⟩ <;> rw [he]
  · exact h
  have ht := h.positive.2.2
  have hr : receivedAt - sentAt ≤ durationMax := by omega
  have ha := averages_sampled h.averages (fun hn => by rw [h.measured hn]; rfl) hr
  refine ⟨h.positive, ?_, rfl, nofun, fun a hm => ?_, ?_, nofun⟩
  · rw [h.sent, hp]
    rfl
  · rcases List.mem_cons.mp hm with rfl | hm
    · rwa [lastRtt_sampled]
    · exact h.rtt a hm
  · rintro q ⟨⟩
    rwa [List.map_cons, lastRtt_sampled]

theorem sound_step (h : Sound w) (input : Input) : Sound (w.step input) := by
  cases input with
  | admitProbe receivedAt =>
    unfold World.step admitProbe
    dsimp only
    split_ifs <;> exact ⟨h.positive, h.sent, h.processed, h.pending, h.rtt, h.averages, h.measured⟩
  | markSent challenge now => exact sound_markSent h challenge now
  | acceptAck challenge receivedAt processedAt =>
    exact sound_acceptAck h challenge receivedAt processedAt

theorem sound_of_init (h : machine.init w) : Sound w := by
  obtain ⟨interval, timeout, now, tracker, hi, ht, hn, rfl⟩ := h
  unfold HeartbeatTracker.new at hn
  split_ifs at hn with hc
  cases hn
  have hp : 0 < interval ∧ 0 < timeout := by omega
  exact ⟨⟨hp.1, hp.2, ht⟩, rfl, rfl, nofun, nofun, nofun, fun _ => rfl⟩

/-- **Heartbeats are safe.** In every run the challenges that were sent are the acknowledged ones and
at most one outstanding, each round trip is shorter than the timeout, a session that timed out was
silent for an interval and a timeout, and the averages stay within the round trips. -/
theorem heartbeats_safe (h : machine.Reach (fun _ _ => True) w) :
    w.sent = (w.tracker.pending.map Prod.fst).toList ++ w.acks.map (·.challenge) ∧
    (∀ a ∈ w.acks, a.rtt < w.tracker.timeout) ∧
    (∀ now < instantMax, w.tracker.timedOut now = true →
      w.lastProcessed + w.tracker.interval + w.tracker.timeout ≤ now) ∧
    ∀ q, w.tracker.sample = some q → Averages q (w.acks.map (·.rtt)) := by
  have hs : Sound w := h.invariant (I := Sound) (fun _ => sound_of_init) fun _ input hw _ =>
    sound_step hw input
  refine ⟨hs.sent, hs.rtt, fun now hn hto => ?_, hs.averages⟩
  obtain ⟨hi, ht, -⟩ := hs.positive
  rw [← hs.processed]
  unfold timedOut at hto
  split at hto
  · have hp := hs.pending _ ‹_›
    have hd := of_decide_eq_true hto
    omega
  · have hd := of_decide_eq_true hto
    unfold durationMax at hd
    unfold instantMax at hn
    omega

/-- A probe after one second whose acknowledgement takes twenty nanoseconds. -/
theorem heartbeats_safe_acknowledged :
    let start : HeartbeatTracker := ⟨1000000000, 3000000000, 0, none, none, none⟩
    let w := machine.run ⟨start, 0, [], []⟩
      [.markSent 7 1000000000, .acceptAck 7 1000000020 1000000030]
    w.sent = [7] ∧ (∀ a ∈ w.acks, a.rtt < w.tracker.timeout) ∧
      w.tracker.sample = some ⟨20, 20, 0, 1⟩ := by
  intro start w
  have hi : machine.init ⟨start, 0, [], []⟩ :=
    ⟨1000000000, 3000000000, 0, start, by decide, by decide, rfl, rfl⟩
  have hr : machine.Reach (fun _ _ => True) w := .run_free (fun _ _ => trivial) _ (.start hi)
  exact ⟨rfl, (heartbeats_safe hr).2.1, by decide⟩

end Rnet.Game.Heartbeat
