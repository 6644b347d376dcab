import Mathlib.Logic.Relation
import Rnet.Transport.Moves

/-! # The books of the worker

What a routine serving an address reads and writes besides the peer and the wire: the state shared
with the application, the deferred messages of the address and their number in the endpoint. Routines
change these by a few operations only: events are published, sessions registered, established and
closed, decisions and commands taken, placeholders resolved, messages deferred, released and cleared.
`Changes` is any sequence of these operations, and the lemmas say so of every routine; what the
operations keep all routines keep. -/

namespace Rnet.Transport.Bookkeeping

open Rnet.Core Lib.BigEndian Lib.FiniteMap Protocol.Records Security.Cipher Security.Controller
open Config State Slots Wire Session Process Maintenance Arms Relation

variable {N : Noise}

/-- The shared state, the deferred messages of an address and the number of deferred messages. -/
structure Books where
  shared : Shared
  deferred : List Outbound
  deferredCount : ℕ

def books (l : Local N) : Books := ⟨l.shared, l.slot.deferred, l.deferredCount⟩

/-- One entry in the books. -/
inductive Change (setup : Setup N) (a : SocketAddr) (b : Books) : Books → Prop
  | pushed (room : Bool) (event : Event) :
    Change setup a b { b with shared := (b.shared.tryPushSessionEvent room event).1 }
  | closed (session : Handle) (reason : ErrorCode) (joining : Bool) :
    Change setup a b { b with shared := b.shared.close session reason joining }
  | marked (session : Handle) :
    Change setup a b { b with shared := (b.shared.markSessionEstablished session).1 }
  | registered :
    Change setup a b { b with
      shared := (b.shared.insertSessionRoute (acceptedRoute setup b.shared.config a)).1 }
  | decided (decisions : Table Handle Bool) :
    Change setup a b { b with shared := { b.shared with authDecisions := decisions } }
  | commanded (commands : Table Handle (List SecurityCommand)) :
    Change setup a b { b with shared := { b.shared with commands := commands } }
  | resolved (o : Outbound) : Change setup a b { b with shared := (b.shared.resolveLatest o).1 }
  | deferred (o : Outbound) :
    Change setup a b { b with
      deferred := b.deferred ++ [o]
      deferredCount := b.deferredCount + 1 }
  | released {o : Outbound} {rest : List Outbound} (h : b.deferred = o :: rest) :
    Change setup a b { b with deferred := rest, deferredCount := b.deferredCount - 1 }
  | returned (o : Outbound) :
    Change setup a b { b with
      deferred := o :: b.deferred
      deferredCount := b.deferredCount + 1 }
  | cleared :
    Change setup a b { b with
      deferred := []
      deferredCount := b.deferredCount - b.deferred.length }

def Changes (setup : Setup N) (a : SocketAddr) : Books → Books → Prop :=
  ReflTransGen (Change setup a)

namespace Changes

variable {setup : Setup N} {a : SocketAddr} {b b' b'' : Books} {l l' : Local N}

theorem refl (b : Books) : Changes setup a b b := ReflTransGen.refl

theorem trans (h : Changes setup a b b') (h' : Changes setup a b' b'') : Changes setup a b b'' :=
  ReflTransGen.trans h h'

theorem single (h : Change setup a b b') : Changes setup a b b' := ReflTransGen.single h

theorem of_same (h : SameDriver l l') : Changes setup a (books l) (books l') := by
  rw [books, books, h.shared, h.deferred, h.deferredCount]
  exact refl _

theorem keeps {P : Books → Prop} (hk : ∀ b b', Change setup a b b' → P b → P b')
    (h : Changes setup a b b') (hb : P b) : P b' := by
  induction h with
  | refl => exact hb
  | tail _ hm ih => exact hk _ _ hm ih

end Changes

section Received

variable (setup : Setup N) (call : Call N) (l : Local N)

theorem changes_pushEvent (event : Event) :
    Changes setup call.peer (books l) (books (pushEvent call l event).1) :=
  .single (.pushed _ _)

theorem changes_handleEstablished (session : Handle) (t : DatagramTransport N)
    (c : SecurityController) (record : Record) :
    Changes setup call.peer (books l)
      (books (handleEstablished setup call l session t c record).loc) := by
  have h := leaves_handleEstablished setup call l session t c record
  generalize (handleEstablished setup call l session t c record).loc = l' at h
  cases h with
  | same => exact .refl _
  | pushed event => exact changes_pushEvent ..
  | responded => exact .of_same (sameDriver_respond ..)
  | completed => exact .trans (.of_same (sameDriver_respond ..)) (changes_pushEvent ..)

theorem changes_marked (session : Handle) :
    Changes setup call.peer (books l) (books (marked l session)) := .single (.marked session)

theorem changes_joinArm (previous : Option (Peer N)) (record : Record) :
    Changes setup call.peer (books l)
      (books (joinArm setup call l previous record).1) := by
  have h := joins_joinArm setup call l previous record
  have hack : ∀ t, Changes setup call.peer (books l) (books (ack setup call l t).1) := fun t =>
    .of_same (sameDriver_sendProtectedResponse ..)
  have hreg : Changes setup call.peer (books l) (books { l with
      shared := (l.shared.insertSessionRoute (acceptedRoute setup l.shared.config call.peer)).1 }) :=
    .single .registered
  generalize joinArm setup call l previous record = arm at h
  cases h with
  | stays | fails => exact .refl _
  | challenges => exact .of_same (sameDriver_sendResponse ..)
  | sends => exact .of_same (sameDriver_sendReliable ..)
  | unregistered => exact hreg
  | registers hs hk hf hi =>
    rw [hi] at hreg
    exact hreg.trans (changes_pushEvent ..)
  | unacknowledged => exact hack _
  | unmarked => exact (hack _).trans (changes_marked ..)
  | accepts => exact ((hack _).trans (changes_marked ..)).trans (changes_pushEvent ..)

theorem changes_process (record : Record) :
    Changes setup call.peer (books l)
      (books (process setup call l record).1) := by
  unfold process
  split
  · rename_i session t c commands lastActivity deadline _ _
    have h := changes_handleEstablished setup call (setPeer l none) session t c record
    unfold establishedArm
    dsimp only
    split <;> exact h
  · have h := changes_joinArm setup call (setPeer l none) l.slot.peer record
    split <;> rename_i he <;> rw [he] at h <;> exact h

theorem changes_dropSession (session : Handle) (e : RnetError) :
    Changes setup call.peer (books l)
      (books (dropSession l session e)) :=
  .single (.closed _ _ _)

theorem changes_clearDeferred : Changes setup call.peer (books l) (books (clearDeferred l)) :=
  .single .cleared

theorem changes_finishes (h : Finishes remote call joining processed r) :
    Changes setup call.peer (books processed.1) (books r.1) := by
  cases h with
  | settles | fails => exact .refl _
  | @releases l e _ session =>
    have hc : ∀ l : Local N, Changes setup call.peer (books l) (books (endInput (release l) false)) :=
      changes_clearDeferred setup call
    unfold dropActive
    split
    · exact hc _
    split
    · exact (changes_dropSession ..).trans (hc _)
    · exact hc _

/-- **A received record** changes the books by the operations only. -/
theorem changes_receiveRecord (remote : Option SocketAddr) (initialSession : Option Handle)
    (bytes : Bytes) :
    Changes setup call.peer (books l)
      (books (receiveRecord setup remote initialSession call l bytes).1) := by
  have h : Receives setup remote initialSession call l bytes _ := receives_receiveRecord
  generalize receiveRecord setup remote initialSession call l bytes = r at h
  cases h with
  | refused => exact .refl _
  | repeated _ hp _ hl => exact hl ▸ .of_same (hp.repeated _)
  | processed _ h =>
    exact (Changes.of_same h.toSameDriver).trans
      ((changes_process ..).trans (changes_finishes _ _ (finishes_afterProcess ..)))

/-! ### Timers and application messages -/

/-- **A tick** changes the books by the operations only. -/
theorem changes_driveServer :
    Changes setup call.peer (books l)
      (books (driveServer setup call l)) := by
  have h := drives_driveServer setup call l
  have hdec : ∀ session t mode accepted, Changes setup call.peer (books l)
      (books (decision setup call l session t mode accepted).1) := fun session _ _ _ =>
    have h : Changes setup call.peer (books l) (books (deciding l session)) := .single (.decided _)
    h.trans (.of_same (sameDriver_sendProtected ..))
  have hlead : ∀ queue rekey, Changes setup call.peer (books l) (books (leading l queue rekey)) :=
    fun queue _ => .single (.commanded queue)
  have hled := fun queue rekey t epoch data => (hlead queue rekey).trans
    (.of_same (sameDriver_sendProtected setup call _ t epoch .control data 64))
  generalize driveServer setup call l = l' at h
  cases h with
  | rests | expires => exact .refl _
  | drops => exact changes_dropSession setup call (setPeer l none) ..
  | undecided hp hd hs => exact (hs ▸ hdec ..).trans (changes_dropSession ..)
  | unopened hp hd hs =>
    exact ((hs ▸ hdec ..).trans (changes_marked ..)).trans (changes_pushEvent ..)
  | opens hp hd hs ho =>
    subst ho
    exact ((hs ▸ hdec ..).trans (changes_marked ..)).trans (changes_pushEvent ..)
  | rejects hp hd hs => exact (hs ▸ hdec ..).trans (.single (.closed _ _ _))
  | idles => exact hlead _ none
  | unled hp hc hs => exact (hs ▸ hled ..).trans (changes_dropSession ..)
  | leads hp hc hs =>
    subst hs
    exact hled ..

variable {l} {l' : Local N} {fate : Fate N}

theorem changes_attempts (h : Attempts setup call l t c o l' fate) :
    Changes setup call.peer (books l) (books l') :=
  .trans (.single (.resolved o)) (.of_same h.driver)

variable (l)

theorem changes_takeOutbound (o : Outbound) :
    Changes setup call.peer (books l) (books (takeOutbound setup call l o)) := by
  have h := takes_takeOutbound setup call l o
  generalize takeOutbound setup call l o = l' at h
  cases h with
  | ignored => exact .refl _
  | waits => exact .single (.deferred o)
  | @attempts _ _ _ _ _ _ l₁ fate hp ha ht h =>
    have hs : Changes setup call.peer (books l) (books l₁) := (changes_attempts setup call h :)
    cases fate with
    | empty | handed => exact hs
    | failed => exact hs.trans (changes_dropSession ..)
    | blocked t o' => exact hs.trans (.single (.deferred o'))

theorem changes_flushDeferred :
    Changes setup call.peer (books l)
      (books (flushDeferred setup call l)) := by
  have h := flushes_flushDeferred setup call l
  generalize flushDeferred setup call l = l' at h
  cases h with
  | rests => exact .refl _
  | @attempts _ _ _ _ _ _ _ _ l₁ fate hp hd ha ht h =>
    have hs : Changes setup call.peer (books l) (books l₁) :=
      .trans (.single (.released hd)) (changes_attempts setup call h :)
    cases fate with
    | empty | handed => exact hs
    | failed => exact hs.trans (.trans (changes_dropSession ..) (changes_clearDeferred ..))
    | blocked t o' => exact hs.trans (.single (.returned o'))

theorem changes_expirePeer (remote : Option SocketAddr) :
    Changes setup call.peer (books l)
      (books (expirePeer remote call l).1) := by
  unfold expirePeer
  split
  · exact .refl _
  have hc := changes_clearDeferred setup call (setPeer l none)
  split
  · exact hc
  split_ifs
  · exact hc
  · exact hc.trans (changes_dropSession ..)

end Received

theorem changes_cleanupPeer (setup : Setup N) (a : SocketAddr) (l : Local N) (session : Handle) :
    Changes setup a (books l) (books (cleanupPeer l session)) := by
  unfold cleanupPeer
  dsimp only
  split_ifs
  · exact .refl _
  · exact .single .cleared

/-! ### What the operations keep -/

def Registered (s : Shared) : Prop :=
  ∀ session route, s.sessions.lookup session = some route → session < s.nextSession

/-- What serving `a` does to the sessions: those that stay keep their target, new ones have `a` as
theirs, and of those that go the worker is told. -/
structure Ledger (a : SocketAddr) (s s' : Shared) : Prop where
  next : s.nextSession ≤ s'.nextSession
  target : ∀ session route route', s.sessions.lookup session = some route →
    s'.sessions.lookup session = some route' → route'.target = route.target
  fresh : ∀ session route, s.sessions.lookup session = none →
    s'.sessions.lookup session = some route →
      s.nextSession ≤ session ∧ session < s'.nextSession ∧ route.target.peer = some a
  closed : ∀ session route peer, s.sessions.lookup session = some route →
    s'.sessions.lookup session = none → route.target.peer = some peer →
      ⟨peer, session⟩ ∈ s'.cleanup
  cleanup : ∀ request ∈ s.cleanup, request ∈ s'.cleanup

namespace Ledger

variable {a : SocketAddr} {s s' s'' : Shared}

theorem of_eq (hn : s'.nextSession = s.nextSession) (hs : s'.sessions = s.sessions)
    (hc : s'.cleanup = s.cleanup) : Ledger a s s' := by
  refine ⟨hn.ge, ?_, ?_, ?_, by rw [hc]; exact fun _ h => h⟩
  all_goals rw [hs]
  · intro session route route' h h'
    rw [Option.some_inj.mp (h.symm.trans h')]
  · intro session route h h'
    rw [h] at h'
    cases h'
  · intro session route peer h h'
    rw [h] at h'
    cases h'

theorem refl (s : Shared) : Ledger a s s := of_eq rfl rfl rfl

theorem registered (h : Ledger a s s') (hs : Registered s) : Registered s' := by
  intro session route' hr'
  cases hr : s.sessions.lookup session with
  | none => exact (h.fresh session route' hr hr').2.1
  | some route => exact (hs session route hr).trans_le h.next

theorem trans (hs : Registered s) (h : Ledger a s s') (h' : Ledger a s' s'') :
    Ledger a s s'' where
  next := h.next.trans h'.next
  target session route route'' hr hr'' := by
    cases hm : s'.sessions.lookup session with
    | none =>
      have hl := (hs session route hr).trans_le h.next
      exact absurd (h'.fresh session route'' hm hr'').1 (not_le_of_gt hl)
    | some route' =>
      exact (h'.target session route' route'' hm hr'').trans
        (h.target session route route' hr hm)
  fresh session route'' hr hr'' := by
    cases hm : s'.sessions.lookup session with
    | none =>
      obtain ⟨hle, hl, hp⟩ := h'.fresh session route'' hm hr''
      exact ⟨h.next.trans hle, hl, hp⟩
    | some route' =>
      obtain ⟨hle, hl, hp⟩ := h.fresh session route' hr hm
      rw [← h'.target session route' route'' hm hr''] at hp
      exact ⟨hle, hl.trans_le h'.next, hp⟩
  closed session route peer hr hg hp := by
    cases hm : s'.sessions.lookup session with
    | none => exact h'.cleanup _ (h.closed session route peer hr hm hp)
    | some route' =>
      rw [← h.target session route route' hr hm] at hp
      exact h'.closed session route' peer hm hg hp
  cleanup request hre := h'.cleanup request (h.cleanup request hre)

theorem of_close (a : SocketAddr) (s : Shared) (session : Handle) (reason : ErrorCode)
    (joining : Bool) : Ledger a s (s.close session reason joining) := by
  have hn := s.nextSession_close session reason joining
  rcases s.close_cases session reason joining with ⟨-, hs⟩ | ⟨route, hro, hc⟩
  · rw [hs]
    exact refl s
  generalize s.close session reason joining = s' at hn hc
  have hl : ∀ other, s'.sessions.lookup other =
      if other = session then none else s.sessions.lookup other := by
    intro other
    rw [hc.sessions, lookup_erase_ite]
  refine ⟨hn.ge, fun other r r' hr hr' => ?_, fun other r hr hr' => ?_,
    fun other r peer hr hr' hp => ?_, fun request hre => ?_⟩
  · rw [hl] at hr'
    split_ifs at hr'
    rw [Option.some_inj.mp (hr.symm.trans hr')]
  · rw [hl, hr] at hr'
    split_ifs at hr'
  · rw [hl] at hr'
    split_ifs at hr' with ho
    · subst ho
      rw [hro] at hr
      cases hr
      rw [hc.cleanup, hp]
      exact List.mem_append_right _ (List.mem_singleton_self _)
    · rw [hr] at hr'
      cases hr'
  · rw [hc.cleanup]
    exact List.mem_append_left _ hre

theorem of_insert (hro : s.sessions.lookup session = some route)
    (ht : route'.target = route.target) (hn : s'.nextSession = s.nextSession)
    (hs : s'.sessions = s.sessions.insert session route') (hc : s'.cleanup = s.cleanup) :
    Ledger a s s' := by
  have hl : ∀ other, s'.sessions.lookup other =
      if other = session then some route' else s.sessions.lookup other := by
    intro other
    rw [hs, lookup_insert_ite]
  refine ⟨hn.ge, fun other r r' hr hr' => ?_, fun other r hr hr' => ?_,
    fun other r peer hr hr' hp => ?_, by rw [hc]; exact fun _ h => h⟩
  · rw [hl] at hr'
    split_ifs at hr' with ho
    · subst ho
      rw [hro] at hr
      cases hr
      cases hr'
      exact ht
    · rw [Option.some_inj.mp (hr.symm.trans hr')]
  · rw [hl] at hr'
    split_ifs at hr' with ho
    · subst ho
      rw [hro] at hr
      cases hr
    · rw [hr] at hr'
      cases hr'
  · rw [hl] at hr'
    split_ifs at hr'
    rw [hr] at hr'
    cases hr'

theorem of_register (hs : Registered s) (hp : route.target.peer = some a) :
    Ledger a s (s.insertSessionRoute route).1 := by
  unfold Shared.insertSessionRoute
  split
  · exact refl s
  have hn : s.sessions.lookup s.nextSession = none := by
    cases hl : s.sessions.lookup s.nextSession with
    | none => rfl
    | some old => exact absurd (hs _ _ hl) (lt_irrefl _)
  refine ⟨Nat.le_succ _, fun other r r' hr hr' => ?_, fun other r hr hr' => ?_,
    fun other r peer hr hr' _ => ?_, fun _ h => h⟩
  all_goals
    replace hr' := (lookup_insert_ite ..).symm.trans hr'
    split_ifs at hr' with ho
  · rw [ho, hn] at hr
    cases hr
  · rw [Option.some_inj.mp (hr.symm.trans hr')]
  · cases hr'
    exact ⟨ho.ge, ho ▸ Nat.lt_succ_self _, hp⟩
  · rw [hr] at hr'
    cases hr'
  · rw [hr] at hr'
    cases hr'

end Ledger

theorem peer_acceptedRoute (setup : Setup N) (config : RuntimeConfig) (a : SocketAddr) :
    (acceptedRoute setup config a).target.peer = some a := by
  unfold acceptedRoute
  split_ifs <;> rfl

variable {setup : Setup N} {a : SocketAddr} {b b' : Books}

theorem ledger_of_change (h : Change setup a b b') (hs : Registered b.shared) :
    Ledger a b.shared b'.shared := by
  cases h with
  | pushed room event =>
    unfold Shared.tryPushSessionEvent
    split_ifs
    · exact .of_eq rfl rfl rfl
    · exact .of_close ..
    · exact .refl _
  | closed session reason joining => exact .of_close ..
  | marked session =>
    unfold Shared.markSessionEstablished
    split
    · exact .refl _
    rename_i route hr
    have ht : ({ route with established := true, authDecision := false } :
      SessionRoute).target = route.target := rfl
    exact .of_insert hr ht rfl rfl rfl
  | registered => exact .of_register hs (peer_acceptedRoute ..)
  | decided | commanded => exact .of_eq rfl rfl rfl
  | resolved o =>
    refine .of_eq (Shared.nextSession_resolveLatest ..) (Shared.kept_resolveLatest ..).2 ?_
    unfold Shared.resolveLatest
    split
    · rfl
    · split <;> rfl
  | deferred | released | returned | cleared => exact .refl _

/-- **The sessions of an endpoint** after any number of operations. -/
theorem ledger_of_changes (h : Changes setup a b b') (hs : Registered b.shared) :
    Ledger a b.shared b'.shared := by
  induction h with
  | refl => exact .refl _
  | tail _ hm ih => exact .trans hs ih (ledger_of_change hm (ih.registered hs))

/-- **The number of deferred messages** follows the queue of the served address. -/
theorem count_of_changes (h : Changes setup a b b')
    (hc : b.deferredCount = others + b.deferred.length) :
    b'.deferredCount = others + b'.deferred.length := by
  refine h.keeps (P := fun b => b.deferredCount = others + b.deferred.length) ?_ hc
  intro b b' hm hb
  cases hm with
  | pushed | closed | marked | registered | decided | commanded | resolved => exact hb
  | deferred o =>
    rw [hb, List.length_append, List.length_singleton, Nat.add_assoc]
  | released hf =>
    rw [hb, hf, List.length_cons]
    exact Nat.add_sub_cancel (others + _) 1
  | returned o =>
    rw [hb, List.length_cons, Nat.add_assoc]
  | cleared => exact (congrArg (· - b.deferred.length) hb).trans (Nat.add_sub_cancel ..)

end Rnet.Transport.Bookkeeping
