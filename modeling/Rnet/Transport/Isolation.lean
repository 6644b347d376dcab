import Rnet.Transport.Joining
import Rnet.Transport.Steps

/-! # Messages and sessions that share an address

Queued and deferred messages are kept by address, and the worker encodes them with whatever session
the address has when their turn comes. Two things let a message of one session leave on another: a
session is established at an address that still has messages of an earlier session waiting, and a
send that looked up its route before its session ended is offered to the queue after another session
was established there. `Separated` excludes exactly these two at the step where they happen; in runs
that meet it every message leaves on the session it was admitted for. -/

namespace Rnet.Transport.Isolation

open Rnet.Core Lib.BigEndian Lib.GuardedRun Lib.GuardedRun.Machine Security.Cipher Security.TagNoise
open Config State Slots Stages Moves Steps Worker Joining
open Protocol.Framing (frameOf)

variable {N : Noise}

def Clean (ep : Endpoint N) (a : SocketAddr) (session : Handle) : Prop :=
  (∀ o ∈ (ep.slot a).deferred, o.owner = session) ∧
    ∀ p ∈ ep.receiver, p.1 = a → p.2.owner = session

instance (ep : Endpoint N) (a : SocketAddr) (session : Handle) :
    Decidable (Clean ep a session) := inferInstanceAs (Decidable (_ ∧ _))

def holder : Stage → Option Handle
  | .established session => some session
  | _ => none

/-- A session is established only where no message of another one waits, and a message is offered
only to an address that no other session holds. -/
def Separated (ep : Endpoint N) : Input N → Prop
  | .serve _ => ∀ p ∈ ep.inbox.head?, ∀ s ∈ clientAwaiting (ep.slot p.1).peer,
    Clean ep p.1 s
  | .driveServer call => ∀ s ∈ serverAwaiting (ep.slot call.peer).peer,
    ep.shared.authDecisions.lookup s = some true → Clean ep call.peer s
  | .offer index => ∀ f ∈ ep.offers[index]?, ∀ s ∈ holder (stageAt ep f.peer), f.session = s
  | _ => True

instance (ep : Endpoint N) (input : Input N) : Decidable (Separated ep input) := by
  cases input <;> dsimp only [Separated] <;> infer_instance

/-- Messages that wait at an established session belong to it, and so did every message that
left. -/
structure Owned (ep : Endpoint N) : Prop where
  clean : ∀ a session, stageAt ep a = .established session → Clean ep a session
  handed : ∀ e ∈ ep.handed, e.outbound.owner = e.session

variable {ep ep' : Endpoint N} {a : SocketAddr} {session : Handle}

theorem Clean.of_subset (h : Clean ep a session)
    (hd : ∀ o ∈ (ep'.slot a).deferred, o ∈ (ep.slot a).deferred ∨ o.owner = session)
    (hr : ∀ p ∈ ep'.receiver, p ∈ ep.receiver ∨ (p.1 = a → p.2.owner = session)) :
    Clean ep' a session := by
  refine ⟨fun o ho => ?_, fun p hp ha => ?_⟩
  · exact (hd o ho).elim (h.1 o) id
  · exact (hr p hp).elim (fun hm => h.2 p hm ha) fun how => how ha

theorem Clean.of_unmoved (h : Clean ep a session) (hs : Unmoved ep ep' a)
    (hr : ∀ p ∈ ep'.receiver, p ∈ ep.receiver) : Clean ep' a session :=
  h.of_subset (fun o ho => .inl (by rwa [hs.deferred] at ho)) fun p hp => .inl (hr p hp)

theorem clean_of_establishing (hg : Separated ep input) (h : Establishing ep input a session) :
    Clean ep a session := by
  cases input <;> try exact h.elim
  case serve call =>
    obtain ⟨hi, ha⟩ := h
    obtain ⟨p, hp, rfl⟩ := Option.map_eq_some_iff.mp hi
    exact hg p hp session ha
  case driveServer call =>
    obtain ⟨rfl, ha, hd⟩ := h
    exact hg session ha hd

theorem owned_of_moved (h : Owned ep) (hmo : Moved may a ep ep')
    (hma : ∀ session, may session → Clean ep a session) : Owned ep' := by
  refine ⟨fun b session hst => ?_, by rw [hmo.handed]; exact h.handed⟩
  have hr : ∀ p ∈ ep'.receiver, p ∈ ep.receiver := by
    rw [hmo.receiver]; exact fun _ => id
  by_cases hb : b = a
  · subst hb
    have hc : Clean ep b session := by
      have hmov := hmo.stage
      rw [hst] at hmov
      generalize hs : stageAt ep b = s at hmov
      cases hmov with
      | stay => exact h.clean b session hs
      | establish hm => exact hma session hm
    refine hc.of_subset (fun o ho => .inl ?_) fun p hp => .inl (hr p hp)
    rcases hmo.deferred with hd | hd <;> rw [hd] at ho
    · exact ho
    · exact absurd ho List.not_mem_nil
  · have hu := hmo.elsewhere b hb
    exact (h.clean b session (hu.stage ▸ hst)).of_unmoved hu hr

variable {l : Local N}

/-- One address served by a routine that kept its session: what it still holds back was there
before or belongs to the session, and what it handed out does too. -/
theorem owned_of_put (h : Owned ep) (hst : stageAt ep a = .established session)
    (hpe : stageOf l.slot.peer = .established session)
    (hd : ∀ o ∈ l.slot.deferred, o ∈ (ep.slot a).deferred ∨ o.owner = session)
    (hh : ∀ e ∈ l.handed, e ∈ ep.handed ∨ e.outbound.owner = e.session) :
    Owned (ep.put a l) := by
  refine ⟨fun b s hs => ?_, fun e he => (hh e he).elim (h.handed e) id⟩
  by_cases hb : b = a
  · subst hb
    have hsl : (ep.put b l).slot b = l.slot := by rw [Endpoint.slot_put, if_pos rfl]
    rw [stageAt, hsl, hpe] at hs
    cases hs
    refine (h.clean b session hst).of_subset ?_ fun p hp => .inl hp
    rwa [hsl]
  · have hsl : (ep.put a l).slot b = ep.slot b := by rw [Endpoint.slot_put, if_neg hb]
    rw [stageAt, hsl] at hs
    exact (h.clean b s hs).of_unmoved (.of_slot hsl) fun p hp => hp

theorem keeps_handed (h : l.handed = (ep.view a).handed) (e : Handed) (he : e ∈ l.handed) :
    e ∈ ep.handed ∨ e.outbound.owner = e.session :=
  .inl (by rwa [h] at he)

theorem Owned.shrink (h : Owned ep) (hsu : ∀ p ∈ receiver, p ∈ ep.receiver) :
    Owned { ep with receiver := receiver } where
  clean a session hs := (h.clean a session hs).of_unmoved (.of_slot rfl) hsu
  handed := h.handed

theorem owned_taken (h : Owned ep) (hme : (a, o) ∈ ep.receiver) (ht : Taken call o (ep.view a) l) :
    Owned (ep.put a l) := by
  have ho : ∀ {session}, stageAt ep a = .established session → o.owner = session :=
    fun hs => (h.clean a _ hs).2 _ hme rfl
  cases ht with
  | dropped hse => exact owned_of_moved h (.of_served hse) fun _ => False.elim
  | waits hs hsa hp hd hh =>
    refine owned_of_put h hs hp (fun m hm => ?_) (keeps_handed hh)
    rw [hd, List.mem_append, List.mem_singleton] at hm
    exact hm.imp_right fun hm => by rw [hm, hsa.owner, ho hs]
  | handed _ hs hsa hp hd hh =>
    refine owned_of_put h hs hp (fun m hm => .inl (hd ▸ hm)) fun e he => ?_
    rw [hh, List.mem_append, List.mem_singleton] at he
    exact he.imp_right fun he => by rw [he]; exact hsa.owner.trans (ho hs)

theorem owned_flushed (h : Owned ep) (hfl : Flushed call (ep.view a) l) : Owned (ep.put a l) := by
  have ho : ∀ {session o rest},
      stageAt ep a = .established session → (ep.slot a).deferred = o :: rest →
      o.owner = session := fun hs hf =>
    (h.clean a _ hs).1 _ (by rw [hf]; exact List.mem_cons_self)
  cases hfl with
  | none hse => exact owned_of_moved h (.of_served hse) fun _ => False.elim
  | skipped hs hf hp hd hh =>
    refine owned_of_put h hs hp (fun m hm => .inl ?_) (keeps_handed hh)
    rw [show (ep.slot a).deferred = _ from hf]
    exact List.mem_cons_of_mem _ (hd ▸ hm)
  | blocked hs hf hsa hp hd hh =>
    refine owned_of_put h hs hp (fun m hm => ?_) (keeps_handed hh)
    rw [hd, List.mem_cons] at hm
    rw [show (ep.slot a).deferred = _ from hf]
    rcases hm with rfl | hm
    · exact .inr (hsa.owner.trans (ho hs hf))
    · exact .inl (List.mem_cons_of_mem _ hm)
  | handed hs hf hsa hp hd hh =>
    refine owned_of_put h hs hp (fun m hm => .inl ?_) fun e he => ?_
    · rw [show (ep.slot a).deferred = _ from hf]
      exact List.mem_cons_of_mem _ (hd ▸ hm)
    rw [hh, List.mem_append, List.mem_singleton] at he
    exact he.imp_right fun he => by
      rw [he]; exact hsa.owner.trans (ho hs hf)

/-- **A guarded step keeps ownership.** -/
theorem owned_step (setup : Setup N) (h : Owned ep) (hg : Separated ep input) :
    Owned (step setup ep input) := by
  have hc := step_cases setup ep input
  generalize step setup ep input = ep' at hc
  cases hc with
  | moved a hmo => exact owned_of_moved h hmo fun _ => clean_of_establishing hg
  | taken call hi hf ht he =>
    rw [he]
    refine (owned_taken h (by rw [hf]; exact List.mem_cons_self) ht).shrink fun p hp => ?_
    exact hf ▸ List.mem_cons_of_mem _ hp
  | flushed hfl he => exact he ▸ owned_flushed h hfl
  | @queued index f o hi ho how _ hslo _ hr _ hh =>
    have hsl : ∀ b, ep'.slot b = ep.slot b := fun b => by
      rw [Endpoint.slot, Endpoint.slot, hslo]
    refine ⟨fun b s hs => ?_, by rw [hh]; exact h.handed⟩
    rw [stageAt, hsl] at hs
    refine (h.clean b s hs).of_subset (fun m hm => .inl (hsl b ▸ hm)) fun p hp => ?_
    rw [hr, List.mem_append, List.mem_singleton] at hp
    refine hp.imp_right fun hp hb => ?_
    subst hi hp hb
    rw [how]
    exact hg f ho s (by rw [stageAt, hs]; rfl)
  | @failover current next _ hcu hn hgo hel hd _ hr _ hh =>
    refine ⟨fun b s hs => ?_, by rw [hh]; exact h.handed⟩
    have hst : stageAt ep b = .established s := by
      by_cases hb : b = next
      · rw [hb, hn] at hs; cases hs
      by_cases hb' : b = current
      · rw [hb', hgo fun he => hb (hb'.trans he)] at hs; cases hs
      · rwa [hel b hb' hb] at hs
    exact (h.clean b s hst).of_subset (fun m hm => .inl (hd b ▸ hm))
      fun p hp => .inl (hr ▸ hp)

theorem owned_init (setup : Setup N) (h : (machine setup).init ep) : Owned ep := by
  have hf := fresh_of_init setup h
  refine ⟨fun a session _ => ⟨?_, ?_⟩, ?_⟩
  · rw [hf.deferred]; exact fun _ ho => absurd ho List.not_mem_nil
  · rw [hf.receiver]; exact fun _ hp => absurd hp List.not_mem_nil
  · rw [hf.handed]; exact fun _ he => absurd he List.not_mem_nil

/-- **In every run that keeps sessions separated, each message leaves on the session it was admitted
for.** -/
theorem handed_to_owner (setup : Setup N) {ep : Endpoint N}
    (h : (machine setup).Reach Separated ep) : ∀ e ∈ ep.handed, e.outbound.owner = e.session :=
  (h.invariant (fun _ => owned_init setup) fun _ _ => owned_step setup).handed

def sendInputs (session : Handle) (frame : Bytes) (now : Instant) : List (Input tagNoise) :=
  [.prepareSend ⟨0, 0⟩ session frame .data none, .offer 0,
    .outbound (calm home now (9 : UInt64))]

def served : Endpoint tagNoise :=
  (machine (server .udp)).run (joined .udp .production) (sendInputs 1 (frameOf 6 [1, 2, 3]) 1)

theorem handed_to_owner_served :
    served.handed ≠ [] ∧ ∀ e ∈ served.handed, e.outbound.owner = e.session := by
  refine ⟨by decide +kernel, handed_to_owner (server .udp) ?_⟩
  refine reach_run _ (reach_run _ (.start ⟨.production, 3600000, by decide, rfl, .inl rfl⟩) ?_) ?_
  · decide +kernel
  · decide +kernel

/-- The same client comes back from its address with new randomness. -/
def returning : Pair tagNoise := ⟨(7 : UInt64), (11 : UInt64), (3 : UInt64), (13 : UInt64), [1]⟩

/-- A message waits in the write queue while its session is closed, and the client joins again from
the same address. -/
def rejoinInputs : List (Input tagNoise) :=
  [.prepareSend ⟨0, 0⟩ 1 (frameOf 6 [1, 2, 3]) .data none, .offer 0, .closeSession 1 .ok,
      .cleanup] ++ joinInputs .udp returning home 1 2 ++ [.outbound (calm home 2 (11 : UInt64))]

theorem queued_message_changes_session :
    ((machine (server .udp)).run (joined .udp .production) rejoinInputs).handed =
      [⟨home, 2, ⟨frameOf 6 [1, 2, 3], .data, none, 1, 0⟩⟩] := by
  decide +kernel

end Rnet.Transport.Isolation
