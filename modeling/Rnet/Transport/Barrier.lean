import Rnet.Security.TagNoise
import Rnet.Transport.DatagramLimits
import Rnet.Transport.KcpBarrier
import Rnet.Transport.TcpBarrier
import Rnet.Transport.TcpLimits

/-! # The security barrier on ordered channels

TCP and KCP deliver in order, and on both every record that was sent is accepted when it arrives,
whatever transitions it meets on the way. The messages of the application are those the public send
functions admit. -/

namespace Rnet.Transport.Barrier

open Rnet.Core Lib.FiniteMap Lib.GuardedRun Protocol.Framing Security.Cipher
open Security.Controller Security.TagNoise State Slots Session Sending Joining

variable {N : Noise}

/-! ### What the application sends -/

theorem admissible_of_sendWithOptions
    (h : sendWithOptions s usage session payload c = .ok (target, out)) (hk : o.kind = .data)
    (hb : o.bytes = out) : Admissible s.config o := by
  obtain ⟨rfl, hbo, hm, -⟩ := admitted_of_sendWithOptions h
  unfold Admissible messageOf
  rw [hk]
  exact .inl ⟨rfl, ⟨_, by rw [hb]; exact decodeDatagram_frameOf hbo hm⟩⟩

theorem admissible_of_sendGameControl
    (h : sendGameControl s usage session payload = .ok (target, out)) (hk : o.kind = .gameControl)
    (hb : o.bytes = out) : Admissible s.config o := by
  unfold sendGameControl at h
  split_ifs at h with hr hbo
  obtain ⟨rfl, -⟩ := admitted_of_prepare h
  unfold Admissible messageOf
  rw [hk]
  exact .inr ⟨rfl, by rw [hb]; exact not_lt.mp hbo⟩

/-! ### Every record is accepted -/

/-- **The barrier is safe on ordered channels.** In every run of a TCP or of a KCP connection whose
sends succeed, the next record under way to either side is accepted. -/
theorem ordered_records_accepted (laws : N.CipherLaws) (ideal : N.Ideal) :
    (∀ w, (TcpBarrier.machine N).Reach TcpBarrier.Succeeds w →
      ∀ role, TcpBarrier.Accepts (w.state role) (w.incoming role)) ∧
    ∀ w, (KcpBarrier.machine N).Reach KcpBarrier.Succeeds w →
      ∀ role, KcpBarrier.Accepts (w.party role) (w.incoming role) := by
  constructor
  · intro w hw role
    obtain ⟨c, x, hs⟩ := TcpBarrier.sound_of_reach laws hw
    exact TcpBarrier.accepts_of_sound ideal hs role
  · intro w hw role
    obtain ⟨c, x, hs⟩ := KcpBarrier.sound_of_reach laws hw
    exact KcpBarrier.accepts_of_sound ideal hs role

/-! ### A rekey under way -/

def rekeying : TcpBarrier.Connection tagNoise where
  server := { TcpLimits.serverEnd with commands := true }
  client := TcpLimits.clientEnd
  toClient := []
  toServer := []

theorem start_rekeying : TcpBarrier.Start rekeying where
  config := rfl
  controllers := ⟨.encrypted, 1, by decide, rfl, rfl⟩
  forth := ⟨rfl, rfl⟩
  back := ⟨rfl, rfl⟩
  active := by rintro (_ | _) <;> decide
  quiet := by rintro (_ | _) <;> exact ⟨rfl, rfl⟩

/-- The client of a KCP server that joined: it acknowledged the join and has read everything. -/
def caller : KcpBarrier.Party tagNoise where
  setup := ⟨1, .kcp, .adaptiveClient [1], none⟩
  remote := none
  initialSession := some 1
  session := 1
  loc :=
    { slot := { Slot.empty tagNoise with
        peer := some (.established 1 ⟨⟨5, 9, 0⟩, ⟨5, 9, 1⟩, 1, .empty⟩ (.new .client .encrypted 1)
          false 0 none)
        engine := some ⟨1, 0, false, []⟩ }
      shared := { Shared.initial .production with
        sessions := (∅ : Table Handle SessionRoute).insert 1
          ⟨1, .kcp home, true, false, false, true⟩ }
      kcpQueuedBytes := 0
      deferredCount := 0
      sent := []
      handed := [] }
  read := (KcpEnd.queuedOf (DatagramLimits.quiescent.view home)).length

def callee : KcpBarrier.Party tagNoise where
  setup := server .kcp
  remote := none
  initialSession := none
  session := 1
  loc :=
    { DatagramLimits.quiescent.view home with
      shared := { DatagramLimits.quiescent.shared with
        commands := (∅ : Table Handle (List SecurityCommand)).insert 1 [.rekey] } }
  read := 0

def call : KcpBarrier.Connection tagNoise := ⟨callee, caller⟩

theorem start_call : KcpBarrier.Start call where
  kind := by rintro (_ | _) <;> rfl
  config := by decide +kernel
  active := by rintro (_ | _) <;> decide +kernel
  engine := by rintro (_ | _) <;> decide +kernel
  read := by decide +kernel
  ends := ⟨.encrypted, 1, ⟨⟨5, 9, 1⟩, ⟨5, 9, 0⟩, 1, .empty⟩, ⟨⟨5, 9, 0⟩, ⟨5, 9, 1⟩, 1, .empty⟩, _,
    by decide, ⟨rfl, nofun, rfl, nofun⟩, ⟨true, 0, none, by decide +kernel⟩,
    ⟨false, 0, none, rfl⟩, .inl ⟨rfl, rfl⟩⟩

/-- On both connections the server's proposal is under way and will be accepted. -/
theorem ordered_records_accepted_rekeying :
    (∃ w, (TcpBarrier.machine tagNoise).Reach TcpBarrier.Succeeds w ∧ w.incoming .client ≠ [] ∧
      TcpBarrier.Accepts (w.state .client) (w.incoming .client)) ∧
    ∃ w, (KcpBarrier.machine tagNoise).Reach KcpBarrier.Succeeds w ∧ w.incoming .client ≠ [] ∧
      KcpBarrier.Accepts (w.party .client) (w.incoming .client) := by
  have h := ordered_records_accepted cipherLaws_tagNoise ideal_tagNoise
  have ht : (TcpBarrier.machine tagNoise).Reach TcpBarrier.Succeeds
      ((TcpBarrier.machine tagNoise).run rekeying [.command .server ⟨1, true, "", true⟩ .rekey]) :=
    Machine.reach_run _ (.start start_rekeying) ⟨⟨rfl, by decide⟩, trivial⟩
  have hk : (KcpBarrier.machine tagNoise).Reach KcpBarrier.Succeeds
      ((KcpBarrier.machine tagNoise).run call [.drive .server (calm home 2 (9 : UInt64))]) :=
    Machine.reach_run _ (.start start_call)
      ⟨by unfold KcpBarrier.Succeeds; decide +kernel, trivial⟩
  exact ⟨⟨_, ht, by decide +kernel, h.1 _ ht .client⟩,
    ⟨_, hk, by decide +kernel, h.2 _ hk .client⟩⟩

end Rnet.Transport.Barrier
