import Rnet.Transport.Joining
import Rnet.Transport.SlotCases

/-! # Nobody joins without a cookie

Anybody can write any source address into a datagram, so a listener answers a hello with a cookie and
gives an address a place only when a hello comes with a valid one. `Presents` is such a step.
No other step of the worker, whatever arrives, expires or is closed in between, makes an address join:
every address that joins or is established has presented a cookie before. -/

namespace Rnet.Transport.Cookies

open Rnet.Core Lib.BigEndian Lib.GuardedRun Protocol.Records Security.TagNoise Security.Cipher
open Config State Slots Wire Process Maintenance KcpPreflight Worker Holdings Arms SlotCases
open Joining

variable {N : Noise} {setup : Setup N} {ep : Endpoint N} {a : SocketAddr}

/-- The step serves a hello of the address with a cookie that is accepted. -/
def Presents (setup : Setup N) (ep : Endpoint N) (a : SocketAddr) (input : Input N) : Prop :=
  ∃ call bytes rest record, input = .serve call ∧ ep.inbox = (a, bytes) :: rest ∧
    decodeRecord bytes (recordLimit setup ep.shared.config) = .ok record ∧
    record.kind = .clientHello ∧ record.payload.length = cookieLen ∧
    call.cookieValid record.payload = true

theorem live_receiveRecord
    (hl : live (receiveRecord setup remote initialSession call l bytes).1.slot.peer = true) :
    live l.slot.peer = true ∨ ∃ record,
      decodeRecord bytes (recordLimit setup l.shared.config) = .ok record ∧
        Greets setup call l.slot.peer record := by
  have hr : Receives setup remote initialSession call l bytes _ := receives_receiveRecord
  generalize receiveRecord setup remote initialSession call l bytes = r at hr hl
  cases hr with
  | refused => exact .inl hl
  | @repeated _ _ response _ _ hp _ hl' =>
    subst hl'
    rcases hp.slot response with hs | ⟨-, -, hs⟩ <;> rw [hs] at hl <;> exact .inl hl
  | @processed record l₀ hd hb =>
    have hp := processes_process setup call l₀ record
    generalize process setup call l₀ record = r at hp hl
    obtain ⟨l₁, result⟩ := r
    rcases @afterProcess_cases N remote initialSession call l₁ result _ _ with
      ⟨-, -, hpe, -⟩ | ⟨-, hs⟩
    · rw [hpe] at hl
      cases hl
    · rw [hs.peer] at hl
      rcases hp.joins hl with h | ⟨h, -⟩ <;> rw [hb.peer] at h
      · exact .inl h
      · exact .inr ⟨record, hd, h⟩

theorem live_cleanupPeer (hl : live (cleanupPeer l session).slot.peer = true) :
    live l.slot.peer = true := by
  rcases slot_cleanupPeer_cases l session with ⟨-, -, -, hk⟩ | hr
  · rw [hk] at hl
    exact hl
  · rw [hr] at hl
    cases hl

/-- **One step.** An address that joins now was joining before, or presents a cookie. -/
theorem live_of_slotCase (hre : ep.remote = none) (hc : SlotCase setup ep a input s')
    (hl : live s'.peer = true) : live (ep.slot a).peer = true ∨ Presents setup ep a input := by
  have hpre : ∀ {call packet l r}, handlePreflight setup ep.remote (ep.answer call) (ep.view a) packet =
      (l, r) → l.slot.peer = (ep.slot a).peer := fun h =>
    congrArg (fun r => r.1.slot.peer) h ▸ (sameDriver_handlePreflight ..).peer
  have hkcp : ∀ {call l kcp l' r}, receiveKcp (ep.answer call) l kcp = (l', r) →
      l'.slot.peer = l.slot.peer := fun h =>
    congrArg (fun r => r.1.slot.peer) h ▸ (sameDriver_receiveKcp ..).peer
  cases hc with
  | same => exact .inl hl
  | preflight hid hp h => exact .inl (hpre h ▸ hl)
  | refused hp hk h hi => exact .inl ((hkcp hi).trans (hpre h) ▸ hl)
  | @fed call packet kcp l l' delivered hp hk h hi =>
    have he : (Endpoint.endPreflight l').slot.peer = l'.slot.peer := by
      unfold Endpoint.endPreflight
      split_ifs <;> rfl
    exact .inl (he.trans ((hkcp hi).trans (hpre h)) ▸ hl)
  | @served call bytes rest ha hfi =>
    rcases live_receiveRecord hl with h | ⟨record, hd, hg⟩
    · exact .inl h
    · exact .inr ⟨call, bytes, rest, record, rfl, hfi, hd, hg.hello, hg.cookie⟩
  | taken hfi => exact .inl ((quiet_takeOutbound ..).joins hl)
  | cleaned hfi hp => exact .inl (live_cleanupPeer hl)
  | reclaimed hp => exact .inl ((Steps.still_reclaim _ (ep.view a)).peer ▸ hl)
  | driven hp => exact .inl ((quiet_driveServer ..).joins hl)
  | flushed hp => exact .inl ((quiet_flushDeferred ..).joins hl)
  | @retried call l hp hr =>
    have hd := (sameDriver_retry setup (ep.answer call) (ep.view a)).peer
    rw [hr] at hd
    exact .inl (hd ▸ hl)
  | @expired call l hp hr =>
    have hh := held_retry setup (ep.answer call) (ep.view a)
    rw [hr] at hh
    exact .inl ((quiet_expirePeer ep.remote call hh).joins hl)
  | failover hf => exact absurd (hre.symm.trans hf.remote) (by simp)

/-- **Nobody joins without a cookie.** In every run of a listener, an address that joins or is
established, and was not at the start, has presented a cookie when it was not. -/
theorem joined_after_cookie (inputs : List (Input N)) (hre : ep.remote = none)
    (hv : live (ep.slot a).peer = false)
    (hl : live (((machine setup).run ep inputs).slot a).peer = true) :
    ∃ before input after, inputs = before ++ input :: after ∧
      live (((machine setup).run ep before).slot a).peer = false ∧
      Presents setup ((machine setup).run ep before) a input := by
  induction inputs generalizing ep with
  | nil => exact absurd hl (Bool.eq_false_iff.mp hv)
  | cons input inputs ih =>
    by_cases hn : live ((step setup ep input).slot a).peer = true
    · refine ⟨[], input, inputs, rfl, hv, ?_⟩
      exact (live_of_slotCase hre (slot_cases setup ep input a) hn).resolve_left
        (Bool.eq_false_iff.mp hv)
    · obtain ⟨before, input', after, rfl, h⟩ := ih ((framed_step setup hre input).remote.trans hre)
        (Bool.eq_false_iff.mpr hn) hl
      exact ⟨input :: before, input', after, rfl, h⟩

theorem joined_after_cookie_visitor : ∃ before input after,
    joinInputs .udp visitor home 0 1 = before ++ input :: after ∧
      Presents (server .udp) ((machine (server .udp)).run (.server .production) before) home input := by
  obtain ⟨before, input, after, he, -, hp⟩ := @joined_after_cookie _ (server .udp)
    (.server .production) home (joinInputs .udp visitor home 0 1) rfl rfl (by decide +kernel)
  exact ⟨before, input, after, he, hp⟩

end Rnet.Transport.Cookies
