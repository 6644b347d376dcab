import Rnet.Transport.Holdings
import Rnet.Transport.Steps

/-! # What a step of the endpoint does to one address

`slot_cases` opens the step function for the entries of one address: a step leaves them alone or runs
exactly one routine on them. What addresses own is followed through runs by cases on it. -/

namespace Rnet.Transport.SlotCases

open Rnet.Core Lib.BigEndian Lib.FiniteMap Security.Cipher Config State Slots Wire Process Maintenance
open KcpPreflight Steps Worker Worker.Endpoint

variable {N : Noise}

/-- A joining client gives up its address for the next one. -/
structure Failover (ep : Endpoint N) (input : Input N) (current next : SocketAddr) : Prop where
  retries : ∃ call conv rebound, input = .retryCandidate call conv rebound
  remote : ep.remote = some current
  candidates : ∃ rest, ep.candidates = next :: rest

/-- The routine a step runs on an address, and the entries it leaves. -/
inductive SlotCase (setup : Setup N) (ep : Endpoint N) (b : SocketAddr) : Input N → Slot N → Prop
  | same (input : Input N) : SlotCase setup ep b input (ep.slot b)
  | preflight {call : Call N} {packet : Bytes} {kcp : KcpInput} {l : Local N} {r : Result Bool}
    (hidle : ep.idle = true) (hpeer : call.peer = b)
    (h : handlePreflight setup ep.remote (ep.answer call) (ep.view b) packet = (l, r)) :
    SlotCase setup ep b (.datagram call packet kcp) l.slot
  | refused {call : Call N} {packet : Bytes} {kcp : KcpInput} {l l' : Local N} {e : RnetError}
    (hpeer : call.peer = b) (hkcp : setup.kind = .kcp)
    (h : handlePreflight setup ep.remote (ep.answer call) (ep.view b) packet = (l, .ok false))
    (hinput : receiveKcp (ep.answer call) l kcp = (l', .error e)) :
    SlotCase setup ep b (.datagram call packet kcp) l'.slot
  | fed {call : Call N} {packet : Bytes} {kcp : KcpInput} {l l' : Local N}
    {delivered : List Bytes} (hpeer : call.peer = b) (hkcp : setup.kind = .kcp)
    (h : handlePreflight setup ep.remote (ep.answer call) (ep.view b) packet = (l, .ok false))
    (hinput : receiveKcp (ep.answer call) l kcp = (l', .ok delivered)) :
    SlotCase setup ep b (.datagram call packet kcp) (endPreflight l').slot
  | served {call : Call N} {bytes : Bytes} {rest : List (SocketAddr × Bytes)}
    (halive : ep.alive = true) (hinbox : ep.inbox = (b, bytes) :: rest) :
    SlotCase setup ep b (.serve call) (receiveRecord setup ep.remote ep.initialSession
      (ep.answer { call with peer := b }) (ep.view b) bytes).1.slot
  | taken {call : Call N} {o : Outbound} {rest : List (SocketAddr × Outbound)}
    (hfirst : ep.receiver = (b, o) :: rest) :
    SlotCase setup ep b (.outbound call)
      (takeOutbound setup (ep.answer { call with peer := b }) (ep.view b) o).slot
  | cleaned {request : DatagramCleanup} {rest : List DatagramCleanup}
    (hfirst : ep.shared.cleanup = request :: rest) (hpeer : request.peer = b) :
    SlotCase setup ep b .cleanup (cleanupPeer (ep.view b) request.session).slot
  | reclaimed {call : Call N} (hpeer : call.peer = b) :
    SlotCase setup ep b (.reclaim call) (reclaim call.now (ep.view b)).slot
  | driven {call : Call N} (hpeer : call.peer = b) :
    SlotCase setup ep b (.driveServer call)
      (Maintenance.driveServer setup (ep.answer call) (ep.view b)).slot
  | flushed {call : Call N} (hpeer : call.peer = b) :
    SlotCase setup ep b (.flushDeferred call)
      (Maintenance.flushDeferred setup (ep.answer call) (ep.view b)).slot
  | retried {call : Call N} {l : Local N} (hpeer : call.peer = b)
    (h : Wire.retry setup (ep.answer call) (ep.view b) = (l, false)) :
    SlotCase setup ep b (.retry call) l.slot
  | expired {call : Call N} {l : Local N} (hpeer : call.peer = b)
    (h : Wire.retry setup (ep.answer call) (ep.view b) = (l, true)) :
    SlotCase setup ep b (.retry call) (expirePeer ep.remote call l).1.slot
  | failover {input : Input N} {current next : SocketAddr} {s : Slot N}
    (h : Failover ep input current next) (hb : b = current ∨ b = next) :
    SlotCase setup ep b input s

section

variable {setup : Setup N} {ep : Endpoint N} {b : SocketAddr}

theorem SlotCase.of_put (hs : s = (ep.put a l).slot b)
    (h : a = b → SlotCase setup ep b input l.slot) : SlotCase setup ep b input s := by
  rw [slot_put] at hs
  rw [hs]
  by_cases hb : b = a
  · rw [if_pos hb]
    exact h hb.symm
  · rw [if_neg hb]
    exact .same input

theorem SlotCase.of_slots {ep' : Endpoint N} (h : ep'.slots = ep.slots) :
    SlotCase setup ep b input (ep'.slot b) := by
  rw [show ep'.slot b = ep.slot b by unfold slot; rw [h]]
  exact .same input

theorem slotCase_datagram (call : Call N) (packet : Bytes) (kcp : KcpInput)
    (hi : ep.idle = true) : SlotCase setup ep b (.datagram call packet kcp)
      ((ep.datagram setup call packet kcp).slot b) := by
  unfold datagram
  dsimp only
  cases hp : handlePreflight setup ep.remote (ep.answer call) (ep.view call.peer) packet with
  | mk l r =>
    cases r with
    | error e => exact .of_put rfl fun hb => .preflight hi hb (hb ▸ hp)
    | ok consumed =>
      cases consumed with
      | true => exact .of_put rfl fun hb => .preflight hi hb (hb ▸ hp)
      | false =>
        dsimp only
        split_ifs with hk
        · split <;> rename_i hin
          · exact .of_put rfl fun hb => .refused hb hk (hb ▸ hp) hin
          · exact .of_put rfl fun hb => .fed hb hk (hb ▸ hp) hin
        · exact .of_put rfl fun hb => .preflight hi hb (hb ▸ hp)

theorem slotCase_serve (call : Call N) (ha : ep.alive = true) :
    SlotCase setup ep b (.serve call) ((ep.serve setup call).slot b) := by
  unfold serve
  split
  · exact .same _
  rename_i a bytes rest hi
  dsimp only
  split <;> exact .of_put rfl fun hb => by subst hb; exact .served ha hi

theorem slot_cleanupPeer (h : l'.slot = l.slot) (session : Handle) :
    (cleanupPeer l' session).slot = (cleanupPeer l session).slot := by
  unfold cleanupPeer
  rw [h]
  dsimp only
  split_ifs <;> simp only [removePeer, clearDeferred, setPeer, h]

theorem slot_cleanup (hf : ep.shared.cleanup = request :: rest) :
    ep.cleanup.slot b = if b = request.peer then (cleanupPeer (ep.view request.peer)
      request.session).slot else ep.slot b := by
  unfold cleanup
  rw [hf]
  rw [slot_put]
  split_ifs
  · refine slot_cleanupPeer ?_ _
    rfl
  · rfl

theorem slotCase_cleanup : SlotCase setup ep b .cleanup (ep.cleanup.slot b) := by
  cases hf : ep.shared.cleanup with
  | nil =>
    unfold cleanup
    rw [hf]
    exact .same _
  | cons request rest =>
    rw [slot_cleanup hf]
    split_ifs with hb
    · subst hb
      exact .cleaned hf rfl
    · exact .same _

theorem slotCase_retryCandidate (call : Call N) (conv : ℕ) (rebound : Bool) :
    SlotCase setup ep b (.retryCandidate call conv rebound)
      ((ep.retryCandidate setup call conv rebound).slot b) := by
  unfold retryCandidate
  split
  · rename_i current next rest hr hca
    split
    · exact .same _
    rename_i session _
    by_cases hb : b = current ∨ b = next
    · exact .failover ⟨⟨_, _, _, rfl⟩, hr, _, hca⟩ hb
    have hc : (ep.abandon current rest).slot b = ep.slot b :=
      (slot_put ep current b _).trans (if_neg fun h => hb (.inl h))
    have hn : ∀ (ep' : Endpoint N) (l : Local N), ep'.slot b = ep.slot b →
        (ep'.put next l).slot b = ep.slot b := fun ep' l h =>
      (slot_put ep' next b l).trans ((if_neg fun h => hb (.inr h)).trans h)
    have hsa : ∀ s, s = ep.slot b → SlotCase setup ep b
        (.retryCandidate call conv rebound) s := fun s hs => hs ▸ .same _
    split_ifs
    · exact hsa _ hc
    unfold approach
    dsimp only
    split
    · exact hsa _ hc
    · split <;> exact hsa _ (hn _ _ hc)
  · exact .same _

theorem frame_offer (ep : Endpoint N) (index : ℕ) : (ep.offer index).slots = ep.slots ∧
    (ep.offer index).remote = ep.remote ∧ (ep.offer index).inbox = ep.inbox := by
  have he : ∀ (ep' : Endpoint N) (peer : SocketAddr) (o : Outbound),
      (ep'.enqueue peer o).slots = ep'.slots ∧ (ep'.enqueue peer o).remote = ep'.remote ∧
        (ep'.enqueue peer o).inbox = ep'.inbox := by
    intro ep' peer o
    unfold enqueue
    split_ifs <;> exact ⟨rfl, rfl, rfl⟩
  unfold offer
  split
  · exact ⟨rfl, rfl, rfl⟩
  dsimp only
  split
  · exact he ..
  split
  · exact ⟨rfl, rfl, rfl⟩
  split_ifs
  · exact he ..
  · exact ⟨rfl, rfl, rfl⟩

/-- **What a step does to an address.** -/
theorem slot_cases (setup : Setup N) (ep : Endpoint N) (input : Input N) (b : SocketAddr) :
    SlotCase setup ep b input ((step setup ep input).slot b) := by
  have hi : ∀ (c : Bool) (ep' : Endpoint N), SlotCase setup ep b input (ep'.slot b) →
      SlotCase setup ep b input ((if c then ep' else ep).slot b) := by
    intro c ep' h
    split_ifs
    · exact h
    · exact .same _
  cases input with
  | datagram call packet kcp =>
    change SlotCase setup ep b (.datagram call packet kcp)
      ((if ep.idle then ep.datagram setup call packet kcp else ep).slot b)
    split_ifs with hid
    · exact slotCase_datagram call packet kcp hid
    · exact .same _
  | serve call =>
    change SlotCase setup ep b (.serve call)
      ((if ep.alive then ep.serve setup call else ep).slot b)
    split_ifs with ha
    · exact slotCase_serve call ha
    · exact .same _
  | outbound call =>
    refine hi _ _ ?_
    unfold outbound
    split
    · exact .same _
    rename_i a o rest hf
    split_ifs
    · exact .of_put rfl fun hb => by subst hb; exact .taken hf
    · exact .same _
  | cleanup => exact hi _ _ slotCase_cleanup
  | connectTimeout now =>
    refine hi _ _ ?_
    unfold connectTimeout
    split
    · exact .same _
    split
    · exact .same _
    dsimp only
    split_ifs
    · split <;> exact .same _
    · exact .same _
  | retryCandidate call conv rebound => exact hi _ _ (slotCase_retryCandidate call conv rebound)
  | reclaim call => exact hi _ _ (.of_put rfl fun hb => by subst hb; exact .reclaimed rfl)
  | driveServer call => exact hi _ _ (.of_put rfl fun hb => by subst hb; exact .driven rfl)
  | flushDeferred call => exact hi _ _ (.of_put rfl fun hb => by subst hb; exact .flushed rfl)
  | retry call =>
    refine hi _ _ ?_
    unfold retryPeer
    dsimp only
    cases hr : Wire.retry setup (ep.answer call) (ep.view call.peer) with
    | mk l expired =>
      cases expired with
      | false => exact .of_put rfl fun hb => .retried hb (hb ▸ hr)
      | true =>
        have hsl : ∀ s, s = (ep.put call.peer (expirePeer ep.remote call l).1).slot b →
            SlotCase setup ep b (.retry call) s := fun s hs =>
          .of_put hs fun hb => .expired hb (hb ▸ hr)
        dsimp only
        split <;> rename_i he <;> rw [he] at hsl <;> exact hsl _ rfl
  | prepareSend usage session frame kind latestKey =>
    exact .of_slots (alike_prepareSend ep usage session frame kind latestKey).slots
  | offer index => exact .of_slots (frame_offer ep index).1
  | closeSession session reason => exact .same _
  | authDecide session accepted => exact .of_slots (alike_authDecide ep session accepted).slots
  | command session cmd => exact .of_slots (alike_command ep session cmd).slots

/-- A count that an empty slot does not enter follows the slot of the one address that changed. -/
theorem countP_of_slot_ne {ep ep' : Endpoint N} (a : SocketAddr) (he : ∀ b, p b (.empty N) = false)
    (h : ∀ b, b ≠ a → ep'.slot b = ep.slot b) :
    countP ep'.slots p + (if p a (ep.slot a) then 1 else 0) =
      countP ep.slots p + if p a (ep'.slot a) then 1 else 0 := by
  have ha : ∀ e : Endpoint N, (e.slots.lookup a).any (p a) = p a (e.slot a) := by
    intro e
    unfold slot
    cases e.slots.lookup a with
    | none => exact (he a).symm
    | some s => rfl
  have hf : ∀ (e : Endpoint N) b, (e.slots.lookup b).filter (p b) =
      if p b (e.slot b) then some (e.slot b) else none := by
    intro e b
    unfold slot
    cases e.slots.lookup b with
    | none => simp [he b]
    | some s => rfl
  have hs : ∀ b, b ≠ a → (ep'.slots.lookup b).filter (p b) = (ep.slots.lookup b).filter (p b) := by
    intro b hb
    rw [hf, hf, h b hb]
  have hc := countP_of_lookup_ne a hs
  rwa [ha, ha] at hc

end

/-! ### Inbox and address of a server -/

/-- What a step may do to a server besides serving an address: take messages off the inbox, or add
those of an address that is past its preflight. -/
structure Framed (setup : Setup N) (ep ep' : Endpoint N) : Prop where
  remote : ep'.remote = ep.remote
  inbox : ∀ e ∈ ep'.inbox, e ∈ ep.inbox ∨ (setup.kind = .kcp → (ep'.slot e.1).preflight = none)

theorem Framed.of_same (hr : ep'.remote = ep.remote) (hi : ep'.inbox = ep.inbox) :
    Framed setup ep ep' :=
  ⟨hr, fun _ he => .inl (hi ▸ he)⟩

theorem framed_datagram (setup : Setup N) (ep : Endpoint N) (call : Call N) (packet : Bytes)
    (kcp : KcpInput) : Framed setup ep (ep.datagram setup call packet kcp) := by
  unfold datagram
  dsimp only
  split
  · exact .of_same rfl rfl
  · exact .of_same rfl rfl
  rename_i l _
  split_ifs with hk
  · obtain ⟨-, -, hen⟩ := receiveKcp_cases (ep.answer call) l kcp
    split <;> rename_i heq <;> rw [heq] at hen
    · exact .of_same rfl rfl
    rename_i l' delivered
    refine ⟨rfl, fun e he => (List.mem_append.mp he).imp id fun hn _ => ?_⟩
    obtain ⟨bytes, -, rfl⟩ := List.mem_map.mp hn
    change ((ep.put call.peer (endPreflight l')).slot call.peer).preflight = none
    rw [slot_put, if_pos rfl]
    unfold endPreflight
    rw [if_pos (hen delivered rfl)]
  · exact ⟨rfl, fun e he => (List.mem_append.mp he).imp id fun _ h => absurd h hk⟩

theorem framed_step (setup : Setup N) (hr : ep.remote = none) (input : Input N) :
    Framed setup ep (step setup ep input) := by
  have hi : ∀ (c : Bool) (ep' : Endpoint N), Framed setup ep ep' →
      Framed setup ep (if c then ep' else ep) := by
    intro c ep' h
    split_ifs
    · exact h
    · exact .of_same rfl rfl
  cases input with
  | datagram call packet kcp => exact hi _ _ (framed_datagram setup ep call packet kcp)
  | serve call =>
    refine hi _ _ ?_
    unfold serve
    split
    · exact .of_same rfl rfl
    rename_i a bytes rest hin
    have hre : ∀ e ∈ rest, e ∈ ep.inbox := fun e he => hin ▸ List.mem_cons_of_mem _ he
    dsimp only
    split <;> exact ⟨rfl, fun e he => .inl (hre e he)⟩
  | outbound call =>
    refine hi _ _ ?_
    unfold outbound
    split
    · exact .of_same rfl rfl
    · split_ifs <;> exact .of_same rfl rfl
  | cleanup =>
    refine hi _ _ ?_
    unfold cleanup
    split <;> exact .of_same rfl rfl
  | connectTimeout now =>
    refine hi _ _ ?_
    unfold connectTimeout
    rw [hr]
    exact .of_same rfl rfl
  | retryCandidate call conv rebound =>
    refine hi _ _ ?_
    unfold retryCandidate
    rw [hr]
    exact .of_same rfl rfl
  | reclaim call | driveServer call | flushDeferred call => exact hi _ _ (.of_same rfl rfl)
  | retry call =>
    refine hi _ _ ?_
    unfold retryPeer
    dsimp only
    split
    · exact .of_same rfl rfl
    · split <;> exact .of_same rfl rfl
  | prepareSend usage session frame kind latestKey =>
    change Framed setup ep (ep.prepareSend usage session frame kind latestKey)
    unfold prepareSend
    split
    · exact .of_same rfl rfl
    · split <;> exact .of_same rfl rfl
  | offer index => exact .of_same (frame_offer ep index).2.1 (frame_offer ep index).2.2
  | closeSession session reason => exact .of_same rfl rfl
  | authDecide session accepted =>
    change Framed setup ep (ep.authDecide session accepted)
    unfold authDecide
    split
    · exact .of_same rfl rfl
    · split_ifs <;> exact .of_same rfl rfl
  | command session cmd =>
    change Framed setup ep (ep.command session cmd)
    rcases ep.command_cases session cmd with h | h <;> rw [h] <;> exact .of_same rfl rfl

end Rnet.Transport.SlotCases
