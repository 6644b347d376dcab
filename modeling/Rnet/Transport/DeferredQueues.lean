import Rnet.Transport.Bookkeeping
import Rnet.Transport.Fifo

/-! # Deferred messages and their owners

The worker counts deferred messages over all addresses and stops reading the write queue while there
are too many. `Tidy` says that the count is right and that every deferred queue has an owner who will
release it: an established session that is still registered, or a cleanup request that is still
queued. Timers drop a peer without touching its deferred queue and leave the queue to the request; a
hello that is served before the request takes the address over, and then the request releases
nothing. `attended` asks that no record is served in between. -/

namespace Rnet.Transport.DeferredQueues

open Rnet.Core Lib.BigEndian Lib.FiniteMap Lib.GuardedRun Lib.GuardedRun.Machine Protocol.Records
open Security.Cipher Security.TagNoise Config State Slots Wire Session Process
open Maintenance KcpPreflight Arms Stages Moves Steps Worker Bookkeeping Fifo Joining
open Protocol.Framing (frameOf)

variable {N : Noise}

/-! ### The queue of one address -/

/-- Nothing is deferred at `a`, or an established session owns it that is registered or whose cleanup
is requested, or the address has no peer and a cleanup is requested. -/
inductive Kept (a : SocketAddr) (slot : Slot N) (s : Shared) : Prop
  | empty (h : slot.deferred = [])
  | live {session : Handle} (hstage : stageOf slot.peer = .established session)
    (h : s.sessionActive session = true ∨ ⟨a, session⟩ ∈ s.cleanup)
  | orphan {session : Handle} (hpeer : slot.peer = none) (h : ⟨a, session⟩ ∈ s.cleanup)

def RoutedTo (a : SocketAddr) (slot : Slot N) (s : Shared) : Prop :=
  ∀ session route, held (stageOf slot.peer) = some session →
    s.sessions.lookup session = some route → route.target.peer = some a

section Ledgers

variable {a b : SocketAddr} {s s' : Shared} {slot : Slot N}

theorem active_or_requested (h : Ledger a s s')
    (hro : ∀ route, s.sessions.lookup session = some route → route.target.peer = some b)
    (hs : s.sessionActive session = true ∨ ⟨b, session⟩ ∈ s.cleanup) :
    s'.sessionActive session = true ∨ ⟨b, session⟩ ∈ s'.cleanup := by
  rcases hs with ha | hr
  · obtain ⟨route, hl⟩ := Option.isSome_iff_exists.mp ha
    cases hl' : s'.sessions.lookup session with
    | none => exact .inr (h.closed session route b hl hl' (hro route hl))
    | some route' => exact .inl (by rw [Shared.sessionActive, hl']; rfl)
  · exact .inr (h.cleanup _ hr)

theorem Kept.ledger (h : Kept b slot s) (hl : Ledger a s s') (hr : RoutedTo b slot s) :
    Kept b slot s' := by
  cases h with
  | empty h => exact .empty h
  | live hs h =>
    exact .live hs (active_or_requested hl (hr _ · (by rw [hs]; rfl)) h)
  | orphan hp h => exact .orphan hp (hl.cleanup _ h)

theorem RoutedTo.ledger (h : RoutedTo b slot s) (hl : Ledger a s s')
    (hd : ∀ session, held (stageOf slot.peer) = some session → session < s.nextSession ∨
      s'.nextSession = s.nextSession) : RoutedTo b slot s' := by
  intro session route' hh hr'
  cases hr : s.sessions.lookup session with
  | none =>
    obtain ⟨hle, hlt, -⟩ := hl.fresh session route' hr hr'
    rcases hd session hh with ho | hs
    · exact absurd ho (not_lt_of_ge hle)
    · exact absurd (hs ▸ hlt) (not_lt_of_ge hle)
  | some route =>
    rw [hl.target session route route' hr hr']
    exact h session route hh hr

theorem RoutedTo.moved (h : RoutedTo a slot s) (hl : Ledger a s s') (hre : Registered s)
    (hd : ∀ session, held (stageOf slot.peer) = some session → session < s.nextSession)
    (hm : StageMove may s.nextSession s'.nextSession (stageOf slot.peer) (stageOf slot'.peer)) :
    RoutedTo a slot' s' := by
  have hk := h.ledger hl fun session hse => .inl (hd session hse)
  intro session route hh hr
  generalize hs : stageOf slot.peer = stage at hm
  generalize stageOf slot'.peer = stage' at hm hh
  cases hm with
  | stay => exact hk session route (by rw [hs]; exact hh) hr
  | leave => cases hh
  | arrive =>
    cases hh
    cases ho : s.sessions.lookup s.nextSession with
    | none => exact (hl.fresh _ _ ho hr).2.2
    | some old => exact absurd (hre _ _ ho) (lt_irrefl _)
  | establish => exact hk session route (by rw [hs]; exact hh) hr

end Ledgers

/-- What a routine does with the deferred messages of the address it serves. -/
inductive Tending (l l' : Local N) : Prop
  /-- nothing is deferred any more -/
  | cleared (h : l'.slot.deferred = [])
  /-- the session stays -/
  | stays {session : Handle} (hstage : stageOf l.slot.peer = .established session)
    (howner : l.slot.deferred ≠ [] ∨ l.shared.sessionActive session = true)
    (h : stageOf l'.slot.peer = .established session)
  /-- the peer goes and its session is closed -/
  | dropped {session : Handle} (hstage : stageOf l.slot.peer = .established session)
    (howner : l.slot.deferred ≠ []) (hpeer : l'.slot.peer = none)
    (h : l'.shared.sessionActive session = false)
  /-- there was no peer and there is none -/
  | absent (hpeer : l.slot.peer = none) (howner : l.slot.deferred ≠ []) (h : l'.slot.peer = none)

variable {a : SocketAddr} {l l' : Local N}

/-- **Whoever tends the queue keeps it owned.** -/
theorem Kept.tended (h : Kept a l.slot l.shared) (ht : Tending l l')
    (hl : Ledger a l.shared l'.shared) (hro : RoutedTo a l.slot l.shared) :
    Kept a l'.slot l'.shared := by
  have how : ∀ {session}, stageOf l.slot.peer = .established session →
      (l.slot.deferred ≠ [] ∨ l.shared.sessionActive session = true) →
      l'.shared.sessionActive session = true ∨ ⟨a, session⟩ ∈ l'.shared.cleanup := by
    intro session hs ho
    refine active_or_requested hl (hro _ · (by rw [hs]; rfl)) ?_
    rcases ho with hso | ha
    · cases h with
      | empty h => exact absurd h hso
      | live hs' h =>
        rw [hs] at hs'
        cases hs'
        exact h
      | orphan hp =>
        rw [hp] at hs
        cases hs
    · exact .inl ha
  cases ht with
  | cleared h => exact .empty h
  | stays hs ho h => exact .live h (how hs ho)
  | dropped hs ho hp hc =>
    rcases how hs (.inl ho) with ha | hr
    · rw [hc] at ha
      cases ha
    · exact .orphan hp hr
  | absent hp ho hp' =>
    cases h with
    | empty h => exact absurd h ho
    | live hs =>
      rw [hp] at hs
      cases hs
    | orphan _ h => exact .orphan hp' (hl.cleanup _ h)

theorem Tending.of_kept (h : Kept a l.slot l.shared) (hp : l'.slot.peer = l.slot.peer)
    (hd : l'.slot.deferred = l.slot.deferred ∨ l'.slot.deferred = []) : Tending l l' := by
  rcases hd with hsa | he
  · by_cases hs : l.slot.deferred = []
    · exact .cleared (hsa.trans hs)
    cases h with
    | empty h => exact absurd h hs
    | live hst => exact .stays hst (.inl hs) (by rw [hp]; exact hst)
    | orphan hn => exact .absent hn hs (hp.trans hn)
  · exact .cleared he

theorem Tending.before (h : SameDriver l₁ l₂) (h' : Tending l₂ l₃) : Tending l₁ l₃ := by
  cases h' with
  | cleared hc => exact .cleared hc
  | stays hs ho hst =>
    rw [h.peer] at hs
    rw [h.deferred, h.shared] at ho
    exact .stays hs ho hst
  | dropped hs ho hp hcl =>
    rw [h.peer] at hs
    rw [h.deferred] at ho
    exact .dropped hs ho hp hcl
  | absent hp ho hp' =>
    rw [h.peer] at hp
    rw [h.deferred] at ho
    exact .absent hp ho hp'

theorem Tending.of_served (h : Served may l l') (ht : l.slot.deferred ≠ [] → Tending l l') :
    Tending l l' := by
  by_cases hs : l.slot.deferred = []
  · rcases h.deferred with hsa | he
    · exact .cleared (hsa.trans hs)
    · exact .cleared he
  · exact ht hs

/-! ### What the routines do with it -/

theorem peer_of_established (h : stageOf peer = .established session) :
    ∃ t c commands lastActivity deadline, peer =
      some (.established session t c commands lastActivity deadline) := by
  cases peer with
  | none => cases h
  | some state =>
    cases state with
    | established _ t c commands lastActivity deadline =>
      cases h
      exact ⟨t, c, commands, lastActivity, deadline, rfl⟩
    | _ => cases h

theorem inactive_dropSession (l : Local N) (session : Handle) (e : RnetError) :
    (dropSession l session e).shared.sessionActive session = false := by
  unfold dropSession Shared.sessionActive Shared.removeSessionWithError
  rw [Shared.lookup_close]
  rfl

section Routines

variable (setup : Setup N) (call : Call N) {a : SocketAddr} {l : Local N}

theorem joinArm_established {session : Handle} {previous next : Option (Peer N)} (record : Record)
    (hs : stageOf previous = .established session)
    (h : (joinArm setup call l previous record).2 = .ok next) :
    stageOf next = .established session := by
  obtain ⟨t, c, commands, d, e, rfl⟩ := peer_of_established hs
  have hj := joins_joinArm setup call l (some (.established session t c commands d e)) record
  generalize joinArm setup call l _ record = r at hj h
  cases hj with
  | stays => cases h; exact hs
  | fails => cases h
  | challenges _ hn =>
    obtain rfl := next_of_after h
    rcases hn with rfl | ⟨_, rfl⟩ <;> exact hs
  | sends hm => cases hm with | greets _ _ _ _ hv => cases hv
  | unregistered => cases h

theorem process_established (record : Record) (hs : stageOf l.slot.peer = .established session) :
    stageOf (process setup call l record).1.slot.peer = .established session ∨
      (process setup call l record).1.slot.peer = none ∧ ∃ e, (process setup call l record).2 =
      .error e := by
  unfold process
  split
  · rename_i hp _
    rw [hp] at hs
    unfold establishedArm
    dsimp only
    split <;> exact .inl hs
  · have hk := (armMove_joinArm setup call (setPeer l none) l.slot.peer record).kept
    have ha := @joinArm_established N setup call (setPeer l none) session l.slot.peer
    split <;> rename_i he <;> rw [he] at hk
    · exact .inr ⟨hk.peer, _, rfl⟩
    · exact .inl (ha record hs (congrArg Prod.snd he))

theorem receiveRecord_established (remote : Option SocketAddr) (initialSession : Option Handle)
    (bytes : Bytes) (hs : stageOf l.slot.peer = .established session) :
    stageOf (receiveRecord setup remote initialSession call l bytes).1.slot.peer =
        .established session ∨
      (receiveRecord setup remote initialSession call l bytes).1.slot.deferred = [] := by
  have hr : Receives setup remote initialSession call l bytes _ := receives_receiveRecord
  generalize receiveRecord setup remote initialSession call l bytes = r at hr
  cases hr with
  | refused => exact .inl hs
  | repeated _ hp _ hl => exact .inl (by rw [hl, (hp.repeated _).peer]; exact hs)
  | @processed record l₀ _ hb =>
    have hj : (l.slot.peer.any fun state => !state.isEstablished) = false := by
      cases hp : l.slot.peer with
      | none => rfl
      | some state =>
        rw [hp] at hs
        cases state <;> first | rfl | cases hs
    have he := process_established setup call record (hb.peer ▸ hs)
    have hf := @finishes_afterProcess N remote initialSession call (l.slot.peer.bind Peer.session)
      false (process setup call l₀ record)
    rw [hj]
    rcases he with he | ⟨hn, e, he⟩
    · exact .inl (hf.peer ▸ he)
    generalize process setup call l₀ record = processed at hf hn he
    generalize afterProcess remote initialSession call _ false processed = r at hf
    cases hf with
    | settles hr =>
      subst he
      rw [hn] at hr
      simp at hr
    | fails _ hj => exact absurd hj.2 nofun
    | releases => exact .inr rfl

theorem tending_receiveRecord (remote : Option SocketAddr) (initialSession : Option Handle)
    (bytes : Bytes) (h : Kept a l.slot l.shared)
    (hp : l.slot.deferred = [] ∨ l.slot.peer.isSome = true) :
    Tending l (receiveRecord setup remote initialSession call l bytes).1 := by
  refine .of_served (served_receiveRecord ..) fun hso => ?_
  cases h with
  | empty h => exact absurd h hso
  | live hs =>
    rcases receiveRecord_established setup call remote initialSession bytes hs with hst | hc
    · exact .stays hs (.inl hso) hst
    · exact .cleared hc
  | orphan hn =>
    rcases hp with he | hp
    · exact absurd he hso
    · rw [hn] at hp
      cases hp

theorem tending_driveServer (h : Kept a l.slot l.shared) :
    Tending l (driveServer setup call l) := by
  refine .of_served (served_driveServer ..) fun hso => ?_
  cases h with
  | empty h => exact absurd h hso
  | orphan hn =>
    refine .absent hn hso ?_
    unfold driveServer
    rw [hn]
    exact hn
  | @live session hs =>
    obtain ⟨t, c, commands, lastActivity, deadline, hp⟩ := peer_of_established hs
    unfold driveServer
    rw [hp]
    dsimp only
    split_ifs
    · exact .dropped hs hso rfl (inactive_dropSession ..)
    · exact .dropped hs hso rfl (inactive_dropSession ..)
    unfold driveEstablished
    obtain ⟨queue, rekey, c₁, _ | control, hl, -⟩ := takeCommand_eq call l session c commands <;>
      rw [hl]
    · exact .stays hs (.inl hso) rfl
    dsimp only
    have hse := sameDriver_sendProtected setup call (leading l queue rekey) t c₁.epoch .control
      (encodeControl control) 64
    split <;> rename_i hsen <;> rw [hsen] at hse
    · exact .dropped hs hso hse.peer (inactive_dropSession ..)
    · exact .stays hs (.inl hso) rfl

theorem tending_takeOutbound (o : Outbound) (h : Kept a l.slot l.shared) :
    Tending l (takeOutbound setup call l o) := by
  have ht := takes_takeOutbound setup call l o
  generalize takeOutbound setup call l o = l' at ht
  cases ht with
  | ignored => exact .of_kept h rfl (.inl rfl)
  | @waits session _ _ _ _ _ hp ha =>
    have hs : stageOf l.slot.peer = .established session := by rw [hp]; rfl
    exact .stays hs (.inr ha) hs
  | @attempts session _ _ _ _ _ l₁ fate hp ha _ h =>
    have hs : stageOf l.slot.peer = .established session := by rw [hp]; rfl
    cases fate with
    | failed e =>
      -- a session that fails leaves what it had deferred to the cleanup
      by_cases he : l.slot.deferred = []
      · exact .cleared (h.driver.deferred.trans he)
      · exact .dropped hs he h.driver.peer (inactive_dropSession ..)
    | _ => exact .stays hs (.inr ha) rfl

theorem tending_flushDeferred (h : Kept a l.slot l.shared) :
    Tending l (flushDeferred setup call l) := by
  have ht := flushes_flushDeferred setup call l
  generalize flushDeferred setup call l = l' at ht
  cases ht with
  | rests => exact .of_kept h rfl (.inl rfl)
  | @attempts session _ _ _ _ _ o rest l₁ fate hp hf _ _ h =>
    have hs : stageOf l.slot.peer = .established session := by rw [hp]; rfl
    have hso : l.slot.deferred ≠ [] := by
      rw [hf]
      exact List.cons_ne_nil _ _
    cases fate with
    | empty => exact .stays hs (.inl hso) ((congrArg stageOf h.driver.peer).trans hs)
    | failed e => exact .cleared rfl
    | _ => exact .stays hs (.inl hso) rfl

theorem tending_expirePeer (remote : Option SocketAddr) (h : Kept a l.slot l.shared) :
    Tending l (expirePeer remote call l).1 := by
  unfold expirePeer
  split
  · exact .of_kept h rfl (.inl rfl)
  split
  · exact .cleared rfl
  · split_ifs <;> exact .cleared rfl

theorem shared_cleanupPeer (l : Local N) (session : Handle) :
    (cleanupPeer l session).shared = l.shared := by
  unfold cleanupPeer
  dsimp only
  split_ifs <;> rfl

theorem cleanupPeer_cases (l : Local N) (session : Handle) :
    ((cleanupPeer l session).slot.peer = none ∧ (cleanupPeer l session).slot.deferred = []) ∨
      (cleanupPeer l session).slot.peer = l.slot.peer ∧
        (cleanupPeer l session).slot.deferred = l.slot.deferred ∧ l.slot.peer ≠ none ∧
          ∀ owner, stageOf l.slot.peer = .established owner → owner ≠ session := by
  rcases slot_cleanupPeer_cases l session with ⟨p, hp, hs, hk⟩ | hr
  · rw [hk]
    refine .inr ⟨rfl, rfl, by rw [hp]; nofun, fun owner ho => ?_⟩
    obtain ⟨t, c, commands, lastActivity, deadline, he⟩ := peer_of_established ho
    cases hp.symm.trans he
    rintro rfl
    exact hs rfl
  · rw [hr]
    exact .inl ⟨rfl, rfl⟩

end Routines

theorem move_of_taken (h : Taken call o l l') :
    StageMove (fun _ => False) l.shared.nextSession l'.shared.nextSession (stageOf l.slot.peer)
      (stageOf l'.slot.peer) := by
  cases h with
  | dropped hse => exact hse.stage
  | waits hs _ hp | handed _ hs _ hp => rw [hs, hp]; exact .stay _

theorem move_of_flushed (h : Flushed call l l') :
    StageMove (fun _ => False) l.shared.nextSession l'.shared.nextSession (stageOf l.slot.peer)
      (stageOf l'.slot.peer) := by
  cases h with
  | none hse => exact hse.stage
  | skipped hs _ hp | blocked hs _ _ hp | handed hs _ _ hp => rw [hs, hp]; exact .stay _

/-! ### The endpoint -/

/-- Sessions have drawn their handles and lead to their addresses, the deferred messages are counted
and each queue of them has an owner. -/
structure Tidy (ep : Endpoint N) : Prop where
  registered : Registered ep.shared
  count : ep.deferredCount = total ep.slots fun slot => slot.deferred.length
  routed : ∀ a, RoutedTo a (ep.slot a) ep.shared
  kept : ∀ a, Kept a (ep.slot a) ep.shared

variable {ep : Endpoint N}

theorem Tidy.ledger (h : Tidy ep) (hs : ep'.slots = ep.slots)
    (hc : ep'.deferredCount = ep.deferredCount)
    (hn : ep'.shared.nextSession = ep.shared.nextSession) (hl : Ledger a ep.shared ep'.shared) :
    Tidy ep' := by
  have hsl : ∀ b, ep'.slot b = ep.slot b := fun b => by
    rw [Endpoint.slot, Endpoint.slot, hs]
  refine ⟨hl.registered h.registered, ?_, fun b => ?_, fun b => ?_⟩
  · rw [hc, hs]
    exact h.count
  · rw [hsl]
    exact (h.routed b).ledger hl fun _ _ => .inr hn
  · rw [hsl]
    exact (h.kept b).ledger hl (h.routed b)

theorem Tidy.of_eq (h : Tidy ep) (hsl : ep'.slots = ep.slots)
    (hc : ep'.deferredCount = ep.deferredCount) (hs : ep'.shared = ep.shared) : Tidy ep' := by
  have hl : Ledger ⟨.v4 0, 0⟩ ep.shared ep'.shared := by
    rw [hs]
    exact .refl _
  exact h.ledger hsl hc (by rw [hs]) hl

theorem Tidy.fail (h : Tidy ep) (client : Option Handle) (code : ErrorCode) :
    Tidy (ep.fail client code) :=
  h.ledger rfl rfl (alike_fail ep client code).next <|
    List.foldlRecOn (motive := Ledger ⟨.v4 0, 0⟩ ep.shared) _ _ (.refl _) fun s hl session _ =>
      .trans h.registered hl (.of_close _ s session code _)

theorem Tidy.put (h : Tidy ep) (hplaced : Placed ep)
    (hc : Changes setup a (books (ep.view a)) (books l))
    (hr : Ledger a ep.shared l.shared → RoutedTo a l.slot l.shared) (ht : Tending (ep.view a) l) :
    Tidy (ep.put a l) := by
  have hl : Ledger a ep.shared l.shared := ledger_of_changes hc h.registered
  refine ⟨hl.registered h.registered, ?_, fun b => ?_, fun b => ?_⟩
  · obtain ⟨others, ho, hn⟩ := ep.total_put a (f := fun slot => slot.deferred.length) rfl
    rw [hn l]
    exact count_of_changes hc (h.count.trans ho)
  · rw [Endpoint.slot_put]
    split_ifs with hb
    · rw [hb]
      exact hr hl
    · exact (h.routed b).ledger hl fun session hs => .inl (hplaced.drawn b session hs)
  · rw [Endpoint.slot_put]
    split_ifs with hb
    · rw [hb]
      exact (h.kept a).tended ht hl (h.routed a)
    · exact (h.kept b).ledger hl (h.routed b)

theorem Tidy.put_moved (h : Tidy ep) (hplaced : Placed ep)
    (hc : Changes setup a (books (ep.view a)) (books l))
    (hm : StageMove may (ep.view a).shared.nextSession l.shared.nextSession (stageOf (ep.view
      a).slot.peer) (stageOf l.slot.peer)) (ht : Tending (ep.view a) l) : Tidy (ep.put a l) :=
  h.put hplaced hc (fun hl => (h.routed a).moved hl h.registered
    (hplaced.drawn a) hm) ht

theorem Tidy.put_same (setup : Setup N) (h : Tidy ep) (hplaced : Placed ep)
    (hs : SameDriver (ep.view a) l) :
    Tidy (ep.put a l) := by
  have hc : Changes setup a (books (ep.view a)) (books l) := .of_same hs
  have hse : Served (fun _ => False) (ep.view a) l := (Still.of_sameDriver hs).served
  exact h.put_moved hplaced hc hse.stage
    (.of_kept (h.kept a) hs.peer (.inl hs.deferred))

/-! ### The steps -/

section Steps

variable (setup : Setup N) {ep : Endpoint N} (h : Tidy ep) (hplaced : Placed ep)

include setup h hplaced

variable (call : Call N)

theorem tidy_datagram (packet : Bytes) (kcp : KcpInput) :
    Tidy (ep.datagram setup call packet kcp) := by
  have hp := sameDriver_handlePreflight setup ep.remote (ep.answer call) (ep.view call.peer) packet
  unfold Endpoint.datagram
  dsimp only
  split <;> rename_i heq <;> rw [heq] at hp
  · exact (h.put_same setup hplaced hp).fail _ _
  · exact h.put_same setup hplaced hp
  rename_i l
  split_ifs
  · have hk := hp.trans (sameDriver_receiveKcp (ep.answer call) l kcp)
    split <;> rename_i he' <;> rw [he'] at hk
    · exact h.put_same setup hplaced hk
    rename_i l₁ _
    have he : SameDriver l₁ (Endpoint.endPreflight l₁) := by
      unfold Endpoint.endPreflight
      split_ifs <;> exact ⟨rfl, rfl, rfl, rfl, rfl, rfl⟩
    exact (h.put_same setup hplaced (hk.trans he)).of_eq rfl rfl rfl
  · exact (h.put_same setup hplaced hp).of_eq rfl rfl rfl

theorem tidy_serve (hg : ∀ p ∈ ep.inbox.head?, (ep.slot p.1).deferred = [] ∨
      (ep.slot p.1).peer.isSome = true) : Tidy (ep.serve setup call) := by
  unfold Endpoint.serve
  split
  · exact h
  rename_i a bytes rest hi
  have hpe := hg (a, bytes) (by rw [hi]; rfl)
  generalize hca : ep.answer { call with peer := a } = served
  have hc := changes_receiveRecord setup served (ep.view a) ep.remote ep.initialSession bytes
  rw [show served.peer = a by rw [← hca]; rfl] at hc
  have hp := h.put_moved hplaced hc (served_receiveRecord ..).stage
    (tending_receiveRecord setup served _ _ _ (h.kept a) hpe)
  dsimp only
  rw [hca]
  split
  · exact hp.of_eq rfl rfl rfl
  · refine Tidy.fail ?_ _ _
    exact hp.of_eq rfl rfl rfl

theorem tidy_outbound : Tidy (ep.outbound setup call) := by
  unfold Endpoint.outbound
  split
  · exact h
  rename_i a o rest _
  split_ifs
  · dsimp only
    generalize hca : ep.answer { call with peer := a } = taken
    have hc := changes_takeOutbound setup taken (ep.view a) o
    rw [show taken.peer = a by rw [← hca]; rfl] at hc
    exact (h.put_moved hplaced hc (move_of_taken (taken_takeOutbound ..))
      (tending_takeOutbound setup taken o (h.kept a))).of_eq rfl rfl rfl
  · exact h

omit hplaced in
theorem tidy_cleanup : Tidy ep.cleanup := by
  unfold Endpoint.cleanup
  split
  · exact h
  rename_i request rest hcl
  dsimp only
  generalize hpo : ({ ep with shared := { ep.shared with cleanup := rest } } : Endpoint N) = ep₁
  have hsl : ∀ b, ep₁.slot b = ep.slot b := fun b => by rw [← hpo]; rfl
  have hse : ep₁.shared.sessions = ep.shared.sessions := by rw [← hpo]
  have hre : ep₁.shared.cleanup = rest := by rw [← hpo]
  -- requests of other sessions and addresses stay queued
  have hq : ∀ {c}, c ∈ ep.shared.cleanup → c ≠ request →
      c ∈ ep₁.shared.cleanup := by
    intro c hc hne
    rw [hcl] at hc
    rw [hre]
    exact (List.mem_cons.mp hc).resolve_left hne
  have ha : ∀ session, ep₁.shared.sessionActive session = ep.shared.sessionActive session :=
    fun session => by rw [Shared.sessionActive, Shared.sessionActive, hse]
  have hs := shared_cleanupPeer (ep₁.view request.peer) request.session
  have hch := changes_cleanupPeer setup request.peer (ep₁.view request.peer) request.session
  have hca := cleanupPeer_cases (ep₁.view request.peer) request.session
  generalize cleanupPeer (ep₁.view request.peer) request.session = l at hs hch hca
  replace hs : l.shared = ep₁.shared := hs
  refine ⟨?_, ?_, fun b => ?_, fun b => ?_⟩
  · change Registered l.shared
    rw [hs, ← hpo]
    exact h.registered
  · obtain ⟨others, hol, hnew⟩ := ep₁.total_put request.peer
      (f := fun slot => slot.deferred.length) rfl
    rw [hnew l]
    refine count_of_changes hch (Eq.trans ?_ hol)
    rw [← hpo]
    exact h.count
  · change RoutedTo b ((ep₁.put request.peer l).slot b) l.shared
    rw [Endpoint.slot_put, hs]
    intro session route hh hr
    rw [hse] at hr
    refine h.routed b session route ?_ hr
    split_ifs at hh with hb
    · rcases hca with ⟨hp, -⟩ | ⟨hp, -, -⟩
      · rw [hp] at hh
        cases hh
      · rw [hb, ← hsl]
        rwa [hp] at hh
    · rwa [hsl] at hh
  · change Kept b ((ep₁.put request.peer l).slot b) l.shared
    rw [Endpoint.slot_put, hs]
    split_ifs with hb
    · subst hb
      rcases hca with ⟨-, hcle⟩ | ⟨hp, hd, hot⟩
      · exact .empty hcle
      replace hp : l.slot.peer = (ep.slot request.peer).peer := by rw [hp, ← hsl]; rfl
      cases h.kept request.peer with
      | empty he =>
        refine .empty (hd.trans ?_)
        rw [← he, ← hsl]
        rfl
      | live hst ho =>
        refine .live (by rw [hp]; exact hst) ?_
        rw [ha]
        refine ho.imp_right fun hc => hq hc fun heq => ?_
        refine hot.2 _ ?_ (congrArg DatagramCleanup.session heq)
        rw [← hst, ← hsl]
        rfl
      | orphan hn =>
        refine absurd ?_ hot.1
        rw [← hn, ← hsl]
        rfl
    · rw [hsl]
      have hne : ∀ session, (⟨b, session⟩ : DatagramCleanup) ≠ request := by
        rintro session rfl
        exact hb rfl
      cases h.kept b with
      | empty he => exact .empty he
      | live hst ho =>
        refine .live hst ?_
        rw [ha]
        exact ho.imp_right fun hc => hq hc (hne _)
      | orphan hn hc => exact .orphan hn (hq hc (hne _))

omit setup hplaced in
theorem tidy_connectTimeout (now : Instant) : Tidy (ep.connectTimeout now) := by
  unfold Endpoint.connectTimeout
  split
  · exact h
  split
  · exact h
  dsimp only
  split_ifs
  · split
    · exact h.of_eq rfl rfl rfl
    · exact h.fail _ _
  · exact h

theorem tidy_retryPeer : Tidy (ep.retryPeer setup call) := by
  have hs := sameDriver_retry setup (ep.answer call) (ep.view call.peer)
  unfold Endpoint.retryPeer
  dsimp only
  split <;> rename_i he <;> rw [he] at hs
  · exact h.put_same setup hplaced hs
  rename_i l
  have hk : Kept call.peer l.slot l.shared := by
    refine (h.kept call.peer).tended (.of_kept (h.kept call.peer) hs.peer (.inl hs.deferred))
      ?_ (h.routed call.peer)
    rw [hs.shared]
    exact .refl _
  have hse : Served (fun _ => False) (ep.view call.peer) (expirePeer ep.remote call l).1 :=
    .before hs (served_expirePeer ..)
  have hp := h.put_moved hplaced
    (Changes.trans (.of_same hs) (changes_expirePeer setup call l ep.remote)) hse.stage
    (.before hs (tending_expirePeer call ep.remote hk))
  split <;> rename_i he' <;> rw [he'] at hp
  · exact hp
  · exact hp.fail _ _

theorem tidy_reclaim : Tidy (ep.put call.peer (Endpoint.reclaim call.now (ep.view call.peer))) := by
  have hs := still_reclaim call.now (ep.view call.peer)
  have hc : Changes setup call.peer (books (ep.view call.peer))
      (books (Endpoint.reclaim call.now (ep.view call.peer))) := by
    unfold Endpoint.reclaim
    dsimp only
    split_ifs <;> exact .refl _
  have hse : Served (fun _ => False) _ _ := hs.served
  exact h.put_moved hplaced hc hse.stage
    (.of_kept (h.kept call.peer) hs.peer hs.deferred)

theorem tidy_driveServer :
    Tidy (ep.put call.peer (driveServer setup (ep.answer call) (ep.view call.peer))) :=
  h.put_moved hplaced (changes_driveServer setup (ep.answer call) (ep.view call.peer))
    (served_driveServer ..).stage (tending_driveServer setup _ (h.kept call.peer))

theorem tidy_flushDeferred :
    Tidy (ep.put call.peer (flushDeferred setup (ep.answer call) (ep.view call.peer))) :=
  h.put_moved hplaced (changes_flushDeferred setup (ep.answer call) (ep.view call.peer))
    (move_of_flushed (flushed_flushDeferred ..)) (tending_flushDeferred setup _ (h.kept call.peer))

theorem tidy_abandon (rest : List SocketAddr) (hc : stageAt ep current = .joining session) :
    Tidy (ep.abandon current rest) := by
  have he : (ep.slot current).deferred = [] := by
    cases h.kept current with
    | empty he => exact he
    | live hs =>
      rw [stageAt, hs] at hc
      cases hc
    | orphan hn =>
      rw [stageAt, hn] at hc
      cases hc
  have hpu : ∀ l : Local N, books l = books (ep.view current) → l.slot.peer = none →
      Tidy (ep.put current l) := by
    intro l hb hp
    have hch : Changes setup current (books (ep.view current)) (books l) := by
      rw [hb]
      exact .refl _
    have hd : l.slot.deferred = [] := (congrArg Books.deferred hb).trans he
    refine h.put hplaced hch (fun _ => ?_) (.cleared hd)
    intro owner route hh
    rw [hp] at hh
    cases hh
  unfold Endpoint.abandon
  refine Tidy.of_eq (hpu _ ?_ ?_) rfl rfl rfl <;> rfl

end Steps

theorem retarget_cases (s : Shared) (session : Handle) (peer : SocketAddr) :
    (∃ e, s.retargetDatagramSession session peer = (s, .error e)) ∨
      ∃ route target, s.sessions.lookup session = some route ∧ target.peer = some peer ∧
        s.retargetDatagramSession session peer =
          ({ s with sessions := s.sessions.insert session { route with target := target } },
            .ok ()) := by
  unfold Shared.retargetDatagramSession
  split
  · exact .inl ⟨_, rfl⟩
  rename_i route hr
  split
  · exact .inl ⟨_, rfl⟩
  · exact .inr ⟨route, _, hr, rfl, rfl⟩
  · exact .inr ⟨route, _, hr, rfl, rfl⟩

theorem Tidy.retarget {ep : Endpoint N} (h : Tidy ep) {session : Handle} {route : SessionRoute}
    {target : SessionTarget} (hro : ep.shared.sessions.lookup session = some route)
    (hg : ∀ b, held (stageAt ep b) ≠ some session) :
    Tidy { ep with shared := { ep.shared with
      sessions := ep.shared.sessions.insert session { route with target := target } } } := by
  refine ⟨fun other r hr => ?_, h.count, fun b other r hh hr => ?_, fun b => ?_⟩
  · rw [lookup_insert_ite] at hr
    split_ifs at hr with ho
    · exact h.registered other route (ho ▸ hro)
    · exact h.registered other r hr
  · rw [lookup_insert_ite] at hr
    split_ifs at hr with ho
    · exact absurd (ho ▸ hh) (hg b)
    · exact h.routed b other r hh hr
  · cases h.kept b with
    | empty he => exact .empty he
    | live hs how =>
      refine .live hs (how.imp_left fun ha => ?_)
      rw [Shared.sessionActive, lookup_insert_ite]
      split_ifs
      · rfl
      · exact ha
    | orphan hn hre => exact .orphan hn hre

theorem tidy_approach (setup : Setup N) (h : Tidy ep) (hplaced : Placed ep) (call : Call N)
    (conv : ℕ) (hg : ∀ b, held (stageAt ep b) ≠ some session)
    (he : (ep.slot call.peer).deferred = []) : Tidy (ep.approach setup call conv session) := by
  unfold Endpoint.approach
  dsimp only
  rcases retarget_cases ep.shared session call.peer with ⟨e, heq⟩ |
    ⟨route, target, hro, ht, heq⟩
  · rw [heq]
    exact Tidy.fail (h.of_eq rfl rfl rfl) _ _
  have h₂ := @Tidy.retarget N ep h session route target hro hg
  rw [heq]
  dsimp only
  generalize he₂ : ({ ep with shared := { ep.shared with
    sessions := ep.shared.sessions.insert session { route with target := target } } } :
      Endpoint N) = ep₂ at h₂
  have hp₂ : Placed ep₂ := by
    rw [← he₂]
    exact ⟨hplaced.drawn, hplaced.unique, hplaced.handed_drawn, hplaced.stays,
      hplaced.same_peer⟩
  have hs := sameDriver_sendClientHello setup (ep₂.answer call) (ep₂.view call.peer) conv
  split <;> rename_i hse <;> rw [hse] at hs
  · exact (h₂.put_same setup hp₂ hs).fail _ _
  rename_i l
  have hc : Changes setup call.peer (books (ep₂.view call.peer))
      (books (setPeer l (some (.clientHello session call.now)))) := by
    have hsa : Changes setup call.peer (books (ep₂.view call.peer)) (books l) :=
      .of_same hs
    exact hsa
  refine Tidy.of_eq (h₂.put hp₂ hc (fun _ => ?_) (.cleared ?_)) rfl rfl rfl
  · intro other r hh hr
    cases hh
    have hsh : (setPeer l (some (.clientHello session call.now))).shared = ep₂.shared :=
      hs.shared
    rw [hsh, ← he₂] at hr
    rw [lookup_insert_ite, if_pos rfl] at hr
    cases hr
    exact ht
  · refine hs.deferred.trans ?_
    rw [← he₂]
    exact he

/-! ### Every step and every run -/

/-- No record is served at an address without a peer while messages are deferred there, and a client
goes on only to an address where nothing is deferred. -/
def attended (ep : Endpoint N) : Input N → Bool
  | .serve _ => ep.inbox.head?.all fun p =>
    (ep.slot p.1).deferred.isEmpty || (ep.slot p.1).peer.isSome
  | .retryCandidate _ _ _ => ep.candidates.head?.all fun next => (ep.slot next).deferred.isEmpty
  | _ => true

theorem tidy_retryCandidate (setup : Setup N) (h : Tidy ep) (hplaced : Placed ep) (call : Call N)
    (conv : ℕ) (rebound : Bool) (hgu : attended ep (.retryCandidate call conv rebound) = true) :
    Tidy (ep.retryCandidate setup call conv rebound) := by
  unfold Endpoint.retryCandidate
  split
  · rename_i current next rest _ hca
    split
    · exact h
    rename_i session hp
    have hc : stageAt ep current = .joining session :=
      stageOf_of_pendingClientTimeout hp
    have hg := abandoned_abandon ep current rest
    have ht := tidy_abandon setup h hplaced rest hc
    split_ifs
    · exact ht.fail _ _
    have hm : Moved (fun _ => False) current ep (ep.abandon current rest) :=
      hg.moved (fun _ => .of_slot rfl) rfl rfl rfl rfl
    refine tidy_approach setup ht (placed_of_moved hplaced hm) _ _ (fun b hh => ?_) ?_
    · by_cases hb : b = current
      · rw [hb, hg.vacant] at hh
        cases hh
      · rw [hg.elsewhere b hb] at hh
        exact hb (hplaced.unique b current session hh (by rw [hc]; rfl))
    · rw [hg.deferred]
      simpa [attended, hca] using hgu
  · exact h

theorem tidy_offer (h : Tidy ep) (index : ℕ) : Tidy (ep.offer index) := by
  have he : ∀ (ep : Endpoint N) peer o, Tidy ep → Tidy (ep.enqueue peer o) := by
    intro ep peer o h
    unfold Endpoint.enqueue
    split_ifs
    · exact h.of_eq rfl rfl rfl
    · exact h
  have hs : ∀ ep', ep'.slots = ep.slots → ep'.deferredCount = ep.deferredCount →
      ep'.shared.nextSession = ep.shared.nextSession → ep'.shared.sessions = ep.shared.sessions →
      ep'.shared.cleanup = ep.shared.cleanup → Tidy ep' := by
    intro ep' hs hco hn hse hc
    have hl : Ledger ⟨.v4 0, 0⟩ ep.shared ep'.shared := .of_eq hn hse hc
    exact h.ledger hs hco hn hl
  unfold Endpoint.offer
  split
  · exact h
  dsimp only
  split
  · exact he _ _ _ (h.of_eq rfl rfl rfl)
  split
  · exact hs _ rfl rfl rfl rfl rfl
  split_ifs
  · exact he _ _ _ (hs _ rfl rfl rfl rfl rfl)
  · exact h.of_eq rfl rfl rfl

theorem tidy_authDecide (h : Tidy ep) (session : Handle) (accepted : Bool) :
    Tidy (ep.authDecide session accepted) := by
  unfold Endpoint.authDecide
  split
  · exact h
  rename_i route hr
  split_ifs
  · have ht : ({ route with authDecision := false } : SessionRoute).target = route.target :=
      rfl
    have hl : Ledger ⟨.v4 0, 0⟩ ep.shared { ep.shared with
        sessions := ep.shared.sessions.insert session { route with authDecision := false }
        authDecisions := ep.shared.authDecisions.insert session accepted } :=
      .of_insert hr ht rfl rfl rfl
    exact h.ledger rfl rfl rfl hl
  · exact h

theorem tidy_command (h : Tidy ep) (session : Handle) (cmd : SecurityCommand) :
    Tidy (ep.command session cmd) := by
  rcases ep.command_cases session cmd with hc | hc <;> rw [hc]
  · exact h
  · have hl : Ledger ⟨.v4 0, 0⟩ ep.shared { ep.shared with
        commands := ep.shared.commands.insert session [cmd] } := .of_eq rfl rfl rfl
    exact h.ledger rfl rfl rfl hl

/-- **A step keeps the endpoint tidy.** -/
theorem tidy_step (setup : Setup N) (h : Tidy ep) (hplaced : Placed ep)
    (hgu : attended ep input = true) : Tidy (step setup ep input) := by
  have hg : ∀ {enabled : Bool} {ep' : Endpoint N}, Tidy ep' →
      Tidy (if enabled then ep' else ep) := by
    intro enabled ep' h'
    split_ifs
    · exact h'
    · exact h
  cases input with
  | datagram call packet kcp => exact hg (tidy_datagram setup h hplaced ..)
  | serve call =>
    refine hg (tidy_serve setup h hplaced call fun p hp => ?_)
    simpa [attended, Option.mem_def.mp hp] using hgu
  | outbound call => exact hg (tidy_outbound setup h hplaced call)
  | cleanup => exact hg (tidy_cleanup setup h)
  | connectTimeout now => exact hg (tidy_connectTimeout h now)
  | retryCandidate call conv rebound =>
    exact hg (tidy_retryCandidate setup h hplaced call conv rebound hgu)
  | reclaim call => exact hg (tidy_reclaim setup h hplaced call)
  | driveServer call => exact hg (tidy_driveServer setup h hplaced call)
  | flushDeferred call => exact hg (tidy_flushDeferred setup h hplaced call)
  | retry call => exact hg (tidy_retryPeer setup h hplaced call)
  | prepareSend usage session frame kind latestKey =>
    show Tidy (ep.prepareSend usage session frame kind latestKey)
    unfold Endpoint.prepareSend
    split
    · exact h
    split
    · exact h
    · exact h.of_eq rfl rfl rfl
  | offer index => exact tidy_offer h index
  | closeSession session reason =>
    exact h.ledger rfl rfl (Shared.nextSession_close ..) (Ledger.of_close ⟨.v4 0, 0⟩ ..)
  | authDecide session accepted => exact tidy_authDecide h session accepted
  | command session cmd => exact tidy_command h session cmd

theorem tidy_of_vacant (hs : ep.slots = ∅) (hc : ep.deferredCount = 0)
    (hr : Registered ep.shared) : Tidy ep := by
  have hsl : ∀ a, ep.slot a = .empty N := fun a => by rw [Endpoint.slot, hs]; rfl
  refine ⟨hr, ?_, fun a session route hh => ?_, fun a => .empty ?_⟩
  · rw [hc, hs]
    rfl
  · rw [hsl] at hh
    cases hh
  · rw [hsl]
    rfl

theorem tidy_of_init (setup : Setup N) (h : (machine setup).init ep) : Tidy ep := by
  obtain ⟨config, room, hv, -, rfl | ⟨call, conv, candidates, deadline, -, rfl⟩⟩ := h
  all_goals have hi : Registered (Shared.initial config) := fun _ _ h => by cases h
  · exact tidy_of_vacant rfl rfl hi
  have hr : Ledger call.peer (Shared.initial config)
      ((Shared.initial config).insertSessionRoute (clientRoute setup config call.peer)).1 :=
    .of_register hi (peer_acceptedRoute setup config call.peer)
  unfold Endpoint.client
  extract_lets start ep l
  have hf : Fresh ep := ⟨fun _ => rfl, rfl, rfl, rfl, ⟨.v4 0, 0⟩, fun _ => .inl rfl⟩
  have ht : Tidy ep := tidy_of_vacant rfl rfl (hr.registered hi)
  have hs : SameDriver (ep.view call.peer) l := sameDriver_sendClientHello ..
  have hc : Changes setup call.peer (books (ep.view call.peer)) (books l) := .of_same hs
  refine ht.put (placed_of_fresh hf) hc (fun _ => ?_) (.cleared hs.deferred)
  intro session route hh hl
  cases hh
  rw [show (setPeer l (some (.clientHello 1 call.now))).shared = _ from hs.shared] at hl
  exact (hr.fresh 1 route rfl hl).2.2

/-- The deferred queue of an address belongs to an established session that is registered, or a
cleanup request is queued that would empty it. -/
def Owned (ep : Endpoint N) (a : SocketAddr) : Prop :=
  (∃ session, stageAt ep a = .established session ∧ ep.shared.sessionActive session = true) ∨
    ∃ request ∈ ep.shared.cleanup, request.peer = a ∧
      (cleanupPeer (ep.view a) request.session).slot.deferred = []

theorem Tidy.owned (h : Tidy ep) (hso : (ep.slot a).deferred ≠ []) : Owned ep a := by
  cases h.kept a with
  | empty he => exact absurd he hso
  | @live session hs how =>
    rcases how with ha | hr
    · exact .inl ⟨session, hs, ha⟩
    refine .inr ⟨_, hr, rfl, ?_⟩
    rcases cleanupPeer_cases (ep.view a) session with ⟨-, hc⟩ | ⟨-, -, -, ho⟩
    · exact hc
    · exact absurd rfl (ho session hs)
  | @orphan session hn hr =>
    refine .inr ⟨_, hr, rfl, ?_⟩
    rcases cleanupPeer_cases (ep.view a) session with ⟨-, hc⟩ | ⟨-, -, hp, -⟩
    · exact hc
    · exact absurd hn hp

/-- **Deferred messages are counted and owned.** In every run in which no record is served at an
address that has lost its peer but not its deferred messages, the count is the number of deferred
messages, every deferred queue has an owner, and once all cleanup requests are served only
established, registered sessions have deferred messages. -/
theorem deferred_messages_owned (setup : Setup N) {ep : Endpoint N}
    (h : (machine setup).Reach (fun ep input => attended ep input = true) ep) :
    (ep.deferredCount = total ep.slots fun slot => slot.deferred.length) ∧
      (∀ a, (ep.slot a).deferred ≠ [] → Owned ep a) ∧
      (ep.shared.cleanup = [] → 0 < ep.deferredCount → ∃ a session, (ep.slot a).deferred ≠ [] ∧
        stageAt ep a = .established session ∧ ep.shared.sessionActive session = true) := by
  have hb : Tidy ep ∧ Placed ep := by
    refine h.invariant (I := fun ep => Tidy ep ∧ Placed ep) (fun ep hi => ?_)
      fun ep input hep hg => ?_
    · exact ⟨tidy_of_init setup hi, placed_of_fresh (fresh_of_init setup hi)⟩
    · exact ⟨tidy_step setup hep.1 hep.2 hg, placed_step setup hep.2⟩
  obtain ⟨ht, -⟩ := hb
  refine ⟨ht.count, fun a hs => ht.owned hs, fun hc hp => ?_⟩
  have hd : ∃ a, (ep.slot a).deferred ≠ [] := by
    by_contra hn
    have he : ∀ a, (ep.slot a).deferred = [] := fun a => by_contra fun h => hn ⟨a, h⟩
    rw [ht.count, total_eq_zero] at hp
    · exact absurd hp (lt_irrefl 0)
    intro a slot hl
    have hsl : ep.slot a = slot := by rw [Endpoint.slot, hl]; rfl
    rw [← hsl, he a]
    rfl
  obtain ⟨a, hs⟩ := hd
  rcases ht.owned hs with ⟨session, hst, ha⟩ | ⟨request, hr, -⟩
  · exact ⟨a, session, hs, hst, ha⟩
  · rw [hc] at hr
    cases hr

def narrow : RuntimeConfig := { RuntimeConfig.production with writeQueueCapacity := 1 }

/-- A client joins, the server starts a rekey at time `1`, and a message has to wait for its end. -/
def deferInputs : List (Input tagNoise) :=
  [.command 1 .rekey, .driveServer (calm home 1 (9 : UInt64)),
    .prepareSend ⟨0, 0⟩ 1 (frameOf 6 [1, 2, 3]) .data none, .offer 0,
    .outbound (calm home 2 (9 : UInt64))]

def stalled : Endpoint tagNoise :=
  (machine (server .udp)).run (joined .udp narrow) deferInputs

theorem deferred_messages_owned_stalled :
    (stalled.slot home).deferred ≠ [] ∧ stalled.deferredCount = 1 ∧ Owned stalled home := by
  have hr : (machine (server .udp)).Reach (fun ep input => attended ep input = true)
      stalled := by
    refine reach_run _ (reach_run _ (.start ⟨narrow, 3600000, by decide, rfl, .inl rfl⟩) ?_) ?_
    · decide +kernel
    · decide +kernel
  have hs : (stalled.slot home).deferred ≠ [] := by decide +kernel
  exact ⟨hs, by decide +kernel, (deferred_messages_owned (server .udp) hr).2.1 home hs⟩

/-- The rekey is not acknowledged in time and the peer is dropped, a hello with a valid cookie takes
the address over before the cleanup request is served, and the new handshake is never finished. -/
def abandonedInputs : List (Input tagNoise) :=
  Input.driveServer (calm home 5001 (9 : UInt64)) ::
    arrive .udp (calm home 5002 (11 : UInt64))
      (recordBytes ⟨.clientHello, 0, List.replicate cookieLen 0⟩) ++
    [.cleanup, .driveServer (calm home 10002 (9 : UInt64))]

/-- No peer, no session and no cleanup request is left, but the message of the dead session is still
deferred and keeps the write queue closed. -/
theorem dead_session_blocks_endpoint :
    let ep := (machine (server .udp)).run stalled abandonedInputs
    narrow.validate 3600000 = .ok () ∧ ep.alive = true ∧ (ep.slot home).peer.isNone = true ∧
      ep.shared.sessions.lookup 1 = none ∧ ep.shared.cleanup = [] ∧
      (ep.slot home).deferred.length = 1 ∧
      ep.shared.config.writeQueueCapacity ≤ ep.deferredCount := by
  decide +kernel

end Rnet.Transport.DeferredQueues
