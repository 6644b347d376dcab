import Rnet.Transport.Arms

/-! # How a session moves through an address

The handshake states of an address, seen from outside, are three stages: no session, a session that
is joining, an established session. A routine moves an address from one stage to the next in few
ways (`StageMove`), and whatever serves received records or timers hands no application message to
the wire and at most clears the deferred ones (`Served`). This module says so of received records:
`served_receiveRecord` goes through the arms of the state machine once and for all. -/

namespace Rnet.Transport.Stages

open Rnet.Core Lib.BigEndian Protocol.Records Security.Cipher Security.Controller
open Config State Slots Wire Session Process Maintenance Arms

variable {N : Noise}

inductive Stage
  | vacant
  | joining (session : Handle)
  | established (session : Handle)
  deriving DecidableEq

def stageOf : Option (Peer N) → Stage
  | some (.established session ..) => .established session
  | some (.serverAuth session ..) => .joining session
  | some (.clientHello session ..) => .joining session
  | some (.clientResponse session ..) => .joining session
  | some (.clientAuth session ..) => .joining session
  | _ => .vacant

def clientAwaiting : Option (Peer N) → Option Handle
  | some (.clientAuth session ..) => some session
  | _ => none

def serverAwaiting : Option (Peer N) → Option Handle
  | some (.serverAuth session ..) => some session
  | _ => none

/-- The ways an address changes its stage while the handle counter goes from `next` to `next'`;
`may` says which joining session may become established. -/
inductive StageMove (may : Handle → Prop) (next next' : Handle) : Stage → Stage → Prop
  | stay (s : Stage) : StageMove may next next' s s
  | leave (s : Stage) : StageMove may next next' s .vacant
  | arrive (h : next < next') : StageMove may next next' .vacant (.joining next)
  | establish {session : Handle} (h : may session) :
    StageMove may next next' (.joining session) (.established session)

/-- What serving a record or a timer does to the address. -/
structure Served (may : Handle → Prop) (l l' : Local N) : Prop where
  handed : l'.handed = l.handed
  deferred : l'.slot.deferred = l.slot.deferred ∨ l'.slot.deferred = []
  next : l.shared.nextSession ≤ l'.shared.nextSession
  stage : StageMove may l.shared.nextSession l'.shared.nextSession (stageOf l.slot.peer)
    (stageOf l'.slot.peer)

variable {may : Handle → Prop}

theorem StageMove.mono (h : StageMove may n n' s s') (hl : n' ≤ n'') :
    StageMove may n n'' s s' := by
  cases h with
  | stay => exact .stay _
  | leave => exact .leave _
  | arrive h => exact .arrive (h.trans_le hl)
  | establish h => exact .establish h

theorem StageMove.imp (h : StageMove may n n' s s') (hm : ∀ session, may session → may' session) :
    StageMove may' n n' s s' := by
  cases h with
  | stay => exact .stay _
  | leave => exact .leave _
  | arrive h => exact .arrive h
  | establish h => exact .establish (hm _ h)

/-- No move: the peer stays and at most the deferred messages go. -/
structure Still (l l' : Local N) : Prop where
  peer : l'.slot.peer = l.slot.peer
  handed : l'.handed = l.handed
  deferred : l'.slot.deferred = l.slot.deferred ∨ l'.slot.deferred = []
  next : l.shared.nextSession ≤ l'.shared.nextSession

variable {l l' : Local N}

theorem Still.of_sameDriver (h : SameDriver l l') : Still l l' :=
  ⟨h.peer, h.handed, .inl h.deferred, by rw [h.shared]⟩

theorem Still.served {may : Handle → Prop} {l l' : Local N} (h : Still l l') :
    Served may l l' := by
  refine ⟨h.handed, h.deferred, h.next, ?_⟩
  rw [h.peer]
  exact .stay _

theorem cleared_trans (h : b = a ∨ b = []) (h' : c = b ∨ c = []) : c = a ∨ c = [] := by
  rcases h' with rfl | h'
  · exact h
  · exact .inr h'

variable {l₁ l₂ l₃ : Local N}

theorem Still.trans (h : Still l₁ l₂) (h' : Still l₂ l₃) : Still l₁ l₃ :=
  ⟨h'.peer.trans h.peer, h'.handed.trans h.handed, cleared_trans h.deferred h'.deferred,
    h.next.trans h'.next⟩

theorem Served.before (h : SameDriver l₁ l₂) (h' : Served may l₂ l₃) : Served may l₁ l₃ := by
  obtain ⟨hh, hd, hn, hs⟩ := h'
  rw [h.shared] at hn hs
  rw [h.peer] at hs
  rw [h.deferred] at hd
  exact ⟨hh.trans h.handed, hd, hn, hs⟩

theorem Served.after (h : Served may l₁ l₂) (h' : Still l₂ l₃) : Served may l₁ l₃ := by
  refine ⟨h'.handed.trans h.handed, cleared_trans h.deferred h'.deferred, h.next.trans h'.next, ?_⟩
  rw [h'.peer]
  exact h.stage.mono h'.next

theorem Served.put_back (h : Still (setPeer l none) l')
    (hs : StageMove may l.shared.nextSession l'.shared.nextSession (stageOf l.slot.peer) (stageOf
      p)) : Served may l (setPeer l' p) :=
  ⟨h.handed, h.deferred, h.next, hs⟩

theorem Served.leave (h : Still (setPeer l none) l') : Served may l l' := by
  refine ⟨h.handed, h.deferred, h.next, ?_⟩
  rw [h.peer]
  exact .leave _

/-! ### Received records -/

/-- What an arm of `process` leaves besides the peer it wants put back. -/
structure Kept (l l' : Local N) : Prop where
  peer : l'.slot.peer = l.slot.peer
  handed : l'.handed = l.handed
  deferred : l'.slot.deferred = l.slot.deferred
  next : l.shared.nextSession ≤ l'.shared.nextSession

theorem Kept.of_sameDriver (h : SameDriver l l') : Kept l l' :=
  ⟨h.peer, h.handed, h.deferred, by rw [h.shared]⟩

theorem Kept.trans (h : Kept l₁ l₂) (h' : Kept l₂ l₃) : Kept l₁ l₃ :=
  ⟨h'.peer.trans h.peer, h'.handed.trans h.handed, h'.deferred.trans h.deferred,
    h.next.trans h'.next⟩

/-- What an arm does with the peer it was given. -/
structure ArmMove (previous : Option (Peer N)) (l : Local N) (arm : Arm N) : Prop where
  kept : Kept l arm.1
  stage : ∀ next, arm.2 = .ok next →
    StageMove (fun s => clientAwaiting previous = some s) l.shared.nextSession
      arm.1.shared.nextSession (stageOf previous) (stageOf next)

theorem kept_pushEvent (call : Call N) (l : Local N) (event : Event) :
    Kept l (pushEvent call l event).1 :=
  ⟨rfl, rfl, rfl, le_of_eq (Shared.nextSession_tryPushSessionEvent ..).symm⟩

theorem ArmMove.of_error (h : Kept l l') : ArmMove previous l (l', .error e) :=
  ⟨h, fun _ hn => by cases hn⟩

theorem ArmMove.of_after (h : Kept l s.1)
    (hs : StageMove (fun s => clientAwaiting previous =
      some s) l.shared.nextSession s.1.shared.nextSession (stageOf previous) (stageOf next)) :
    ArmMove previous l (after s next) := by
  obtain ⟨l', e | ⟨⟩⟩ := s
  · exact .of_error h
  · exact ⟨h, fun next hn => by cases hn; exact hs⟩

variable (setup : Setup N) (l : Local N)

theorem stage_of_sends {setup : Setup N} {call : Call N} {record r : Record} {max limit : ℕ}
    (h : Sends setup call record max previous r limit next) :
    stageOf (some next) = stageOf previous := by
  cases h with
  | greets hs hk hr hc hv =>
    -- a hello with a valid cookie replaces only an address without a session
    cases previous with
    | none => rfl
    | some state => cases state <;> first | rfl | cases hv
  | answers | begins | replies | finishes => rfl

theorem kept_marked (session : Handle) : Kept l (marked l session) :=
  ⟨rfl, rfl, rfl, (l.shared.nextSession_markSessionEstablished session).ge⟩

theorem armMove_joinArm (call : Call N) (l : Local N) (previous : Option (Peer N)) (record : Record) :
    ArmMove previous l (joinArm setup call l previous record) := by
  have h := joins_joinArm setup call l previous record
  have hack : ∀ t, Kept l (ack setup call l t).1 := fun t =>
    .of_sameDriver (sameDriver_sendProtectedResponse ..)
  generalize joinArm setup call l previous record = arm at h
  cases h with
  | stays => exact ⟨.of_sameDriver (.refl l), fun next hn => by cases hn; exact .stay _⟩
  | fails => exact .of_error (.of_sameDriver (.refl l))
  | challenges hk hn =>
    refine .of_after (.of_sameDriver (sameDriver_sendResponse ..)) ?_
    rcases hn with rfl | ⟨d, rfl⟩
    · exact .stay _
    · cases previous <;> exact .stay _
  | sends h =>
    refine .of_after (.of_sameDriver (sameDriver_sendReliable ..)) ?_
    rw [stage_of_sends h]
    exact .stay _
  | unregistered =>
    rcases l.shared.insertSessionRoute_cases (acceptedRoute setup l.shared.config call.peer) with
      ⟨e, hr⟩ | ⟨shared, hr, hn⟩ <;> rw [hr]
    · exact .of_error (.of_sameDriver (.refl l))
    · exact .of_error ⟨rfl, rfl, rfl, by rw [hn]; exact Nat.le_succ _⟩
  | registers hs hk hf hi =>
    -- the last handshake message registers a session under a new handle
    rcases l.shared.insertSessionRoute_cases (acceptedRoute setup l.shared.config call.peer) with
      ⟨e, hr⟩ | ⟨shared, hr, hn⟩ <;> obtain ⟨hsh, hse⟩ := Prod.mk.inj (hr.symm.trans hi) <;> cases hse
    subst hsh
    have hlt : l.shared.nextSession < shared.nextSession := hn ▸ Nat.lt_succ_self _
    have hp := kept_pushEvent call { l with shared := shared }
    exact .of_after ⟨(hp _).peer, (hp _).handed, (hp _).deferred, hlt.le.trans (hp _).next⟩
      (.arrive (hlt.trans_le (hp _).next))
  | unacknowledged => exact .of_error (hack _)
  | unmarked => exact .of_error ((hack _).trans (kept_marked ..))
  | accepts =>
    exact .of_after (((hack _).trans (kept_marked ..)).trans (kept_pushEvent ..)) (.establish rfl)

theorem kept_handleEstablished (call : Call N) (l : Local N) (session : Handle)
    (t : DatagramTransport N) (c : SecurityController) (record : Record) :
    Kept l (handleEstablished setup call l session t c record).loc := by
  have hr := fun t epoch response =>
    Kept.of_sameDriver (sameDriver_respond setup call l t epoch response)
  have h := leaves_handleEstablished setup call l session t c record
  generalize (handleEstablished setup call l session t c record).loc = l' at h
  cases h with
  | same => exact .of_sameDriver (.refl l)
  | pushed event => exact kept_pushEvent ..
  | responded => exact hr ..
  | completed => exact (hr ..).trans (kept_pushEvent ..)

theorem served_process (call : Call N) (l : Local N) (record : Record) :
    Served (fun s => clientAwaiting l.slot.peer = some s) l
      (process setup call l record).1 := by
  unfold process
  split
  · rename_i session t c commands lastActivity deadline hp _
    have h := kept_handleEstablished setup call (setPeer l none) session t c record
    unfold establishedArm
    dsimp only
    split
    all_goals
      refine ⟨h.handed, .inl h.deferred, h.next, ?_⟩
      rw [hp]
      exact .stay _
  · have h := armMove_joinArm setup call (setPeer l none) l.slot.peer record
    split <;> rename_i he <;> rw [he] at h
    · refine ⟨h.kept.handed, .inl h.kept.deferred, h.kept.next, ?_⟩
      rw [show _ = none from h.kept.peer]
      exact .leave _
    · refine ⟨h.kept.handed, .inl h.kept.deferred, h.kept.next, h.stage _ rfl⟩

theorem still_dropSession (session : Handle) (e : RnetError) : Still l (dropSession l session e) :=
  ⟨rfl, rfl, .inl rfl, le_of_eq (Shared.nextSession_close ..).symm⟩

theorem still_clearDeferred : Still l (clearDeferred l) :=
  ⟨rfl, rfl, .inr rfl, le_rfl⟩

theorem still_dropActive (session : Option Handle) (e : RnetError) :
    Still l (dropActive l session e) := by
  unfold dropActive
  split
  · exact .of_sameDriver (.refl l)
  split_ifs
  · exact still_dropSession ..
  · exact .of_sameDriver (.refl l)

theorem served_finishes (h : Served may l₀ processed.1)
    (hf : Finishes remote call joining processed r) : Served may l₀ r.1 := by
  cases hf with
  | settles _ rekey success => exact h.after ⟨rfl, rfl, .inl rfl, le_rfl⟩
  | fails => exact h
  | releases _ session => exact h.after ((still_dropActive ..).trans ⟨rfl, rfl, .inr rfl, le_rfl⟩)

theorem served_receiveRecord (remote : Option SocketAddr) (initialSession : Option Handle)
    (call : Call N) (l : Local N) (bytes : Bytes) :
    Served (fun s => clientAwaiting l.slot.peer = some s) l
      (receiveRecord setup remote initialSession call l bytes).1 := by
  have h : Receives setup remote initialSession call l bytes _ := receives_receiveRecord
  generalize receiveRecord setup remote initialSession call l bytes = r at h
  cases h with
  | refused => exact (Still.of_sameDriver (.refl l)).served
  | repeated _ hp _ hl => exact hl ▸ (Still.of_sameDriver (hp.repeated _)).served
  | @processed record l₀ _ h =>
    have hp := served_process setup call l₀ record
    rw [h.peer] at hp
    exact served_finishes (.before h.toSameDriver hp) (finishes_afterProcess ..)

end Rnet.Transport.Stages
