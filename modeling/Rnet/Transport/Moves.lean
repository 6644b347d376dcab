import Rnet.Transport.Stages

/-! # What timers and application messages do to an address

The rest of the routines that serve one address. Ticks, cleanup and expiry move it by stages like
received records do. Two routines hand application messages to the wire, and only at an established
session: `takeOutbound`, described by `Taken`, and `flushDeferred`, described by `Flushed`.
Everything said about runs of the worker rests on these descriptions, not on the routines. -/

namespace Rnet.Transport.Moves

open Rnet.Core Lib.FiniteMap Security.Cipher Config State Slots
open Wire Session Process Maintenance Arms Stages

variable {N : Noise}

/-! ### Timers and cleanup -/

variable {may : Handle → Prop} {l : Local N} {session : Handle}

variable (setup : Setup N) (call : Call N) (l : Local N)

theorem still_leading (queue : Table Handle (List SecurityCommand)) (rekey : Option AutoRekey) :
    Still (setPeer l none) (leading l queue rekey) :=
  ⟨rfl, rfl, .inl rfl, le_rfl⟩

/-- A tick moves the address at most one stage, and establishes a session only at a server whose
application accepted it. -/
theorem served_driveServer :
    Served (fun s => serverAwaiting l.slot.peer = some s ∧
      l.shared.authDecisions.lookup s = some true) l (driveServer setup call l) := by
  have hdec : ∀ session t mode accepted,
      Still (setPeer l none) (decision setup call l session t mode accepted).1 :=
        fun session t mode _ =>
    have h : Still (setPeer l none) (deciding l session) := ⟨rfl, rfl, .inl rfl, le_rfl⟩
    h.trans (.of_sameDriver (sameDriver_sendProtected ..))
  have hpush : ∀ l session event,
      Still l (pushEvent call (marked l session) event).1 := fun l session event =>
    have h := (kept_marked l session).trans (kept_pushEvent call _ event)
    ⟨h.peer, h.handed, .inl h.deferred, h.next⟩
  have hlead := fun queue rekey t epoch kind data max => (still_leading l queue rekey).trans
    (.of_sameDriver (sameDriver_sendProtected setup call _ t epoch kind data max))
  have h := drives_driveServer setup call l
  generalize driveServer setup call l = l' at h
  cases h with
  | rests => exact (Still.of_sameDriver (.refl l)).served
  | expires => exact .leave (.of_sameDriver (sameDriver_removePeer _))
  | drops session e =>
    exact .leave ((still_dropSession _ session e).trans (.of_sameDriver (sameDriver_removePeer _)))
  | undecided hp hd hs => exact .leave (hs ▸ (hdec ..).trans (still_dropSession ..))
  | unopened hp hd hs => exact .leave (hs ▸ (hdec ..).trans (hpush ..))
  | @opens _ _ _ _ _ l' _ hp hd hs ho =>
    have hst : Still (setPeer l none) l' := by
      rw [ho, hs]
      exact (hdec ..).trans (hpush ..)
    refine .put_back (hst.trans ⟨rfl, rfl, .inl rfl, le_rfl⟩) ?_
    rw [hp]
    exact .establish ⟨rfl, hd⟩
  | rejects hp hd hs =>
    refine .put_back (hs ▸ (hdec ..).trans ⟨rfl, rfl, .inl rfl, ?_⟩) (.leave _)
    exact le_of_eq (Shared.nextSession_close ..).symm
  | idles hp =>
    refine .put_back (still_leading ..) ?_
    rw [hp]
    exact .stay _
  | unled hp hc hs => exact .leave (hs ▸ (hlead ..).trans (still_dropSession ..))
  | leads hp hc hs =>
    refine .put_back (hs ▸ hlead ..) ?_
    rw [hp]
    exact .stay _

theorem served_cleanupPeer (session : Handle) : Served may l (cleanupPeer l session) := by
  unfold cleanupPeer
  extract_lets keep l₁
  have h : Served may l l₁ := by
    change Served may l (if keep then l else removePeer (clearDeferred (setPeer l none)))
    split_ifs
    · exact (Still.of_sameDriver (.refl l)).served
    · exact .leave ((still_clearDeferred _).trans (.of_sameDriver (sameDriver_removePeer _)))
  exact h.after ⟨rfl, rfl, .inl rfl, le_rfl⟩

theorem served_expirePeer (remote : Option SocketAddr) (call : Call N) (l : Local N) :
    Served may l (expirePeer remote call l).1 := by
  have hc : Still (setPeer l none) (clearDeferred (setPeer l none)) := still_clearDeferred _
  unfold expirePeer
  split
  · exact (Still.of_sameDriver (.refl l)).served
  split
  · exact .leave hc
  split_ifs
  · exact .leave hc
  · exact .leave (hc.trans (still_dropSession ..))

/-! ### Application messages -/

/-- The same message, with the current content of its slot. -/
structure SameMessage (o o' : Outbound) : Prop where
  owner : o'.owner = o.owner
  ticket : o'.ticket = o.ticket

theorem sameMessage_of_resolveLatest {s : Shared} (h : (s.resolveLatest o).2 = some o') :
    SameMessage o o' := by
  unfold Shared.resolveLatest at h
  split at h
  · cases h; exact ⟨rfl, rfl⟩
  split at h
  · cases h
  · cases h; exact ⟨rfl, rfl⟩

/-- Whether a message taken from the write queue is encoded at once. -/
def sendsNow : Bool :=
  match l.slot.peer with
  | some (.established session _ c _ _ _) => l.shared.sessionActive session && !c.isTransitioning
  | _ => false

inductive Taken (call : Call N) (o : Outbound) (l l' : Local N) : Prop
  /-- the message is dropped, possibly together with the session -/
  | dropped (h : Served (fun _ => False) l l')
  /-- the message waits behind the deferred ones -/
  | waits {session : Handle} {o' : Outbound} (hstage : stageOf l.slot.peer = .established session)
    (hsame : SameMessage o o') (hpeer : stageOf l'.slot.peer = .established session)
    (hdeferred : l'.slot.deferred = l.slot.deferred ++ [o']) (hhanded : l'.handed = l.handed)
    (hnext : l.shared.nextSession ≤ l'.shared.nextSession)
  /-- the message goes to the wire -/
  | handed {session : Handle} {o' : Outbound} (hnow : sendsNow l = true)
    (hstage : stageOf l.slot.peer = .established session)
    (hsame : SameMessage o o') (hpeer : stageOf l'.slot.peer = .established session)
    (hdeferred : l'.slot.deferred = l.slot.deferred)
    (hhanded : l'.handed = l.handed ++ [⟨call.peer, session, o'⟩])
    (hnext : l.shared.nextSession ≤ l'.shared.nextSession)

theorem taken_takeOutbound (o : Outbound) : Taken call o l (takeOutbound setup call l o) := by
  have h := takes_takeOutbound setup call l o
  generalize takeOutbound setup call l o = l' at h
  cases h with
  | ignored => exact .dropped (Still.of_sameDriver (.refl l)).served
  | @waits session _ _ _ _ _ hp ha ht =>
    have hs : stageOf l.slot.peer = .established session := by rw [hp]; rfl
    exact .waits hs ⟨rfl, rfl⟩ hs rfl rfl le_rfl
  | @attempts session _ _ _ _ _ l₁ fate hp ha ht h =>
    have hst : stageOf l.slot.peer = .established session := by rw [hp]; rfl
    have hno : sendsNow l = true := by simp [sendsNow, hp, ha, ht]
    have hd := h.driver
    have hm := fun o' (hf : fate.message = some o') => sameMessage_of_resolveLatest (h.message hf)
    have hn : l.shared.nextSession ≤ l₁.shared.nextSession := by
      rw [hd.shared]
      exact (Shared.nextSession_resolveLatest ..).ge
    have hs : Still (setPeer l none) l₁ := ⟨hd.peer, hd.handed, .inl hd.deferred, hn⟩
    cases fate with
    | empty =>
      refine .dropped (.put_back hs ?_)
      rw [hst]
      exact .stay _
    | failed e => exact .dropped (.leave (hs.trans (still_dropSession ..)))
    | handed t' o' =>
      exact .handed hno hst (hm o' rfl) rfl hd.deferred (congrArg (· ++ _) hd.handed) hn
    | blocked t' o' =>
      exact .waits hst (hm o' rfl) rfl (congrArg (· ++ _) hd.deferred) hd.handed hn

inductive Flushed (call : Call N) (l l' : Local N) : Prop
  /-- nothing is released, or everything is dropped with the session -/
  | none (h : Served (fun _ => False) l l')
  /-- the first message is dropped -/
  | skipped {session : Handle} {o : Outbound} {rest : List Outbound}
    (hstage : stageOf l.slot.peer = .established session) (hfirst : l.slot.deferred = o :: rest)
    (hpeer : stageOf l'.slot.peer = .established session) (hdeferred : l'.slot.deferred = rest)
    (hhanded : l'.handed = l.handed) (hnext : l.shared.nextSession ≤ l'.shared.nextSession)
  /-- the wire has no room yet -/
  | blocked {session : Handle} {o o' : Outbound} {rest : List Outbound}
    (hstage : stageOf l.slot.peer = .established session) (hfirst : l.slot.deferred = o :: rest)
    (hsame : SameMessage o o') (hpeer : stageOf l'.slot.peer = .established session)
    (hdeferred : l'.slot.deferred = o' :: rest) (hhanded : l'.handed = l.handed)
    (hnext : l.shared.nextSession ≤ l'.shared.nextSession)
  /-- the first message goes to the wire -/
  | handed {session : Handle} {o o' : Outbound} {rest : List Outbound}
    (hstage : stageOf l.slot.peer = .established session) (hfirst : l.slot.deferred = o :: rest)
    (hsame : SameMessage o o') (hpeer : stageOf l'.slot.peer = .established session)
    (hdeferred : l'.slot.deferred = rest)
    (hhanded : l'.handed = l.handed ++ [⟨call.peer, session, o'⟩])
    (hnext : l.shared.nextSession ≤ l'.shared.nextSession)

theorem flushed_flushDeferred : Flushed call l (flushDeferred setup call l) := by
  have h := flushes_flushDeferred setup call l
  generalize flushDeferred setup call l = l' at h
  cases h with
  | rests => exact .none (Still.of_sameDriver (.refl l)).served
  | @attempts session _ _ _ _ _ o rest l₁ fate hp hf ha ht h =>
    have hst : stageOf l.slot.peer = .established session := by rw [hp]; rfl
    have hd := h.driver
    have hm := fun o' (hf : fate.message = some o') => sameMessage_of_resolveLatest (h.message hf)
    have hn : l.shared.nextSession ≤ l₁.shared.nextSession := by
      rw [hd.shared]
      exact (Shared.nextSession_resolveLatest ..).ge
    cases fate with
    | empty => exact .skipped hst hf ((congrArg stageOf hd.peer).trans hst) hd.deferred hd.handed hn
    | failed e =>
      -- the session ends with everything it has deferred
      exact .none (.leave ⟨rfl, hd.handed, .inr rfl, hn.trans (still_dropSession l₁ session e).next⟩)
    | handed t' o' =>
      exact .handed hst hf (hm o' rfl) rfl hd.deferred (congrArg (· ++ _) hd.handed) hn
    | blocked t' o' =>
      exact .blocked hst hf (hm o' rfl) rfl (congrArg (o' :: ·) hd.deferred) hd.handed hn

end Rnet.Transport.Moves
