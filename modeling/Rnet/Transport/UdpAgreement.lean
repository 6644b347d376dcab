import Rnet.Lib.GuardedRun
import Rnet.Transport.Joining
import Rnet.Transport.UdpEnd

/-! # Epochs, modes and keys of a UDP session

What the datagram workers of a server and a client hold for each other, joined by a network that keeps
every datagram it was ever given: a delivery takes any of them, so datagrams are lost, duplicated and
reordered at will. A datagram of the application carries a stamp, the mode, epoch and key its sender
used, which the code does not see.

A run takes steps while both sides are established. In every state it reaches the two ends are in a
phase of the unordered barrier, so that they agree on epochs, modes and keys as far as the barrier
promises, and what a side accepts from the application of the other it reads as it was sent. -/

namespace Rnet.Transport.UdpAgreement

open Rnet.Core Lib.BigEndian Lib.GuardedRun Protocol.Framing Protocol.Records Security.Cipher
open Security.Controller Security.Unordered Config State Slots Codec Wire Session
open Maintenance UdpEnd Lib.FiniteMap Security.TagNoise Joining

variable {N : Noise}

/-! ### Two workers and a network -/

/-- One side: how its worker is set up, the session, and what the worker holds for the other side. -/
structure Party (N : Noise) where
  setup : Setup N
  remote : Option SocketAddr
  initialSession : Option Handle
  session : Handle
  loc : Local N

/-- Mode, epoch and key of a side. -/
structure Stamp (N : Noise) where
  mode : SecurityMode
  epoch : ℕ
  key : N.Key
  deriving DecidableEq

/-- A datagram, with a stamp if it carries a message of the application. -/
structure Datagram (N : Noise) where
  bytes : Bytes
  stamp : Option (Stamp N)
  deriving DecidableEq

structure Link (N : Noise) where
  server : Party N
  client : Party N
  toClient : List (Datagram N)
  toServer : List (Datagram N)

def stampOf (p : Party N) : Option (Stamp N) :=
  match p.loc.slot.peer with
  | some (.established _ t c _ _ _) => some ⟨c.mode, c.epoch, t.outKey⟩
  | _ => none

namespace Link

def party (w : Link N) : Role → Party N
  | .server => w.server
  | .client => w.client

def incoming (w : Link N) : Role → List (Datagram N)
  | .server => w.toServer
  | .client => w.toClient

/-- A worker ran one of its routines: what it sent is on the network. -/
def settle (w : Link N) (role : Role) (stamp : Option (Stamp N)) (l : Local N) : Link N :=
  let sent := l.sent.map fun bytes => ⟨bytes, stamp⟩
  match role with
  | .server => { w with
    server := { w.server with loc := { l with sent := [] } }, toClient := w.toClient ++ sent }
  | .client => { w with
    client := { w.client with loc := { l with sent := [] } }, toServer := w.toServer ++ sent }

end Link

/-- The routines of the workers, and what the rest of the runtime does to their shared state. -/
inductive Input (N : Noise)
  | outbound (role : Role) (call : Call N) (o : Outbound)
  | flush (role : Role) (call : Call N)
  | drive (role : Role) (call : Call N)
  | retry (role : Role) (call : Call N)
  | cleanup (role : Role) (request : Handle)
  | deliver (role : Role) (call : Call N) (index : ℕ)
  | runtime (role : Role) (shared : Shared)

/-- Retransmission at one peer, and its end if the control record expired. -/
def retryPeer (p : Party N) (call : Call N) : Local N :=
  match Wire.retry p.setup call p.loc with
  | (l, false) => l
  | (l, true) => (expirePeer p.remote call l).1

def step (w : Link N) : Input N → Link N
  | .outbound role call o =>
    w.settle role (stampOf (w.party role))
      (takeOutbound (w.party role).setup call (w.party role).loc o)
  | .flush role call =>
    w.settle role (stampOf (w.party role))
      (flushDeferred (w.party role).setup call (w.party role).loc)
  | .drive role call =>
    w.settle role none (driveServer (w.party role).setup call (w.party role).loc)
  | .retry role call => w.settle role none (retryPeer (w.party role) call)
  | .cleanup role request => w.settle role none (cleanupPeer (w.party role).loc request)
  | .deliver role call index =>
    match (w.incoming role)[index]? with
    | none => w
    | some d =>
      w.settle role none (receiveRecord (w.party role).setup (w.party role).remote
        (w.party role).initialSession call (w.party role).loc d.bytes).1
  | .runtime role shared => w.settle role none { (w.party role).loc with shared := shared }

def Established (w : Link N) : Prop :=
  ∀ role, ∃ t c, Holds (w.party role).loc (w.party role).session t c

/-- A datagram of a join: a handshake record, or the authorization decision or its
acknowledgement. -/
def FromJoin (N : Noise) (bytes : Bytes) : Prop :=
  ∃ e : Emission N, e.Valid ∧ e.bytes = bytes ∧ e.letter = none

/-- Two sides that finished a join: the same mode and epoch, paired keys, and nothing on the network
or kept for retransmission but datagrams of the join. A server is established before its client: what
it does in between are the steps of a run in which the client waits. -/
structure Start (w : Link N) : Prop where
  kind : ∀ role, (w.party role).setup.kind = .udp
  ends : ∃ mode epoch s c, epoch ≤ u64Max ∧ c.inKey = s.outKey ∧ s.inKey = c.outKey ∧
    Holds w.server.loc w.server.session s (.new .server mode epoch) ∧
    Holds w.client.loc w.client.session c (.new .client mode epoch)
  unsent : ∀ role, (w.party role).loc.sent = []
  kept : ∀ role b, Keeps (w.party role).loc b → FromJoin N b
  network : ∀ role, ∀ d ∈ w.incoming role, d.stamp = none ∧ FromJoin N d.bytes

def machine (N : Noise) : Machine (Link N) (Input N) where
  init := Start
  step := step

/-! ### Phases of a session -/

def other : Role → Role
  | .server => .client
  | .client => .server

theorem eq_or_eq_other (role role' : Role) : role' = role ∨ role' = other role := by
  cases role <;> cases role' <;> decide

/-- A stamp tells what an emission carries; without one it is not from the application. -/
def Stamps : Option (Stamp N) → Emission N → Prop
  | none, e => ∀ epoch mode, e.letter ≠ some (.business epoch mode)
  | some s, e => e.letter = some (.business s.epoch s.mode) ∧ e.key = s.key

/-- Bytes that mean something to the receiver of a side only if the exchange knows it. -/
def Explained (x : Exchange N.Key) (receiver : Role) (bytes : Bytes) (stamp : Option (Stamp N)) :
    Prop :=
  ∃ e : Emission N, e.Valid ∧ e.bytes = bytes ∧
    (∀ letter, e.letter = some letter → letter ∈ x.incoming receiver) ∧ Stamps stamp e

structure Sound (w : Link N) (x : Exchange N.Key) : Prop where
  phase : Phase N.rekey x
  kind : ∀ role, (w.party role).setup.kind = .udp
  unsent : ∀ role, (w.party role).loc.sent = []
  ends : ∀ role t c, Holds (w.party role).loc (w.party role).session t c → endOf t c = x.side role
  network : ∀ role, ∀ d ∈ w.incoming role, Explained x role d.bytes d.stamp
  kept : ∀ role b, Keeps (w.party role).loc b → Explained x (other role) b none

variable {x : Exchange N.Key} {role : Role} {stamp : Option (Stamp N)}

theorem Explained.put (h : Explained x receiver bytes stamp) :
    Explained (x.put role y out) receiver bytes stamp := by
  obtain ⟨e, hv, hb, hle, hs⟩ := h
  refine ⟨e, hv, hb, fun letter hl => ?_, hs⟩
  have hm := hle letter hl
  cases role <;> cases receiver <;> first | exact hm | exact Set.mem_union_left _ hm

theorem explained_emitted {es : List (Emission N)} (he : e ∈ es) (hv : e.Valid)
    (hs : Stamps stamp e) :
    Explained (x.put role y (es.filterMap Emission.letter)) (other role) e.bytes stamp := by
  refine ⟨e, hv, rfl, fun letter hl => ?_, hs⟩
  have hm : letter ∈ es.filterMap Emission.letter := List.mem_filterMap.mpr ⟨e, he, hl⟩
  cases role <;> exact Set.mem_union_right _ hm

/-- What the end of a routine has to be for the session to stay in a phase. -/
def Follows (x : Exchange N.Key) (role : Role) (stamp : Option (Stamp N)) (y : End N.Key)
    (es : List (Emission N)) : Prop :=
  Phase N.rekey (x.put role y (es.filterMap Emission.letter)) ∧
    ∀ e ∈ es, Stamps stamp e

variable {w : Link N}

/-- **A routine that follows the barrier keeps the session in a phase.** Only routines that neither
send again what was kept nor keep more may stamp. -/
theorem sound_settle (h : Sound w x) (role : Role) (hs : again → stamp = none)
    (hk : stamp ≠ none → ∀ b, Keeps l b → Keeps (w.party role).loc b)
    (hl : Leaves again (w.party role).loc l (w.party role).session (Follows x role stamp))
    (hest : Established (w.settle role stamp l)) : ∃ x', Sound (w.settle role stamp l) x' := by
  have hp : (w.settle role stamp l).party role =
      { w.party role with loc := { l with sent := [] } } := by cases role <;> rfl
  have ho : (w.settle role stamp l).party (other role) = w.party (other role) := by
    cases role <;> rfl
  have hse : (w.settle role stamp l).incoming (other role) =
      w.incoming (other role) ++ l.sent.map fun bytes => ⟨bytes, stamp⟩ := by cases role <;> rfl
  have hu : (w.settle role stamp l).incoming role = w.incoming role := by cases role <;> rfl
  obtain ⟨t, c, hh⟩ := hest role
  rw [hp] at hh
  obtain ⟨es, ⟨hph, hes⟩, hv, hwi⟩ := hl t c hh
  have hem : ∀ {b}, b ∈ es.map Emission.bytes →
      Explained (x.put role (endOf t c) (es.filterMap Emission.letter)) (other role) b stamp := by
    intro b hb
    obtain ⟨e, he, rfl⟩ := List.mem_map.mp hb
    exact explained_emitted he (hv e he) (hes e he)
  have hen : ∀ role' t' c', Holds ((w.settle role stamp l).party role').loc
      ((w.settle role stamp l).party role').session t' c' →
      endOf t' c' = (x.put role (endOf t c) (es.filterMap Emission.letter)).side role' := by
    intro role' t' c' hh'
    rcases eq_or_eq_other role role' with rfl | rfl
    · rw [hp] at hh'
      obtain ⟨_, _, _, h1⟩ := hh
      obtain ⟨_, _, _, h2⟩ := hh'
      cases h1.symm.trans h2
      cases role' <;> rfl
    · rw [ho] at hh'
      rw [h.ends _ t' c' hh']
      cases role <;> rfl
  refine ⟨x.put role (endOf t c) (es.filterMap Emission.letter), hph, ?_, ?_, hen, ?_, ?_⟩
  · intro role'
    have hki := h.kind role'
    cases role <;> cases role' <;> exact hki
  · intro role'
    have hq := h.unsent role'
    cases role <;> cases role' <;> first | rfl | exact hq
  · intro role' d hd
    rcases eq_or_eq_other role role' with rfl | rfl
    · rw [hu] at hd
      exact (h.network role' d hd).put
    · rw [hse] at hd
      rcases List.mem_append.mp hd with hd | hd
      · exact (h.network _ d hd).put
      obtain ⟨b, hb, rfl⟩ := List.mem_map.mp hd
      rcases hwi.sent b hb with hb | hb | ⟨ha, hb⟩
      · rw [h.unsent role] at hb
        exact absurd hb List.not_mem_nil
      · exact hem hb
      · rw [hs ha]
        exact (h.kept role b hb).put
  · intro role' b hb
    rcases eq_or_eq_other role role' with rfl | rfl
    · rw [hp] at hb
      by_cases hn : stamp = none
      · rcases hwi.keeps b hb with hb | hb
        · exact hn ▸ hem hb
        · exact (h.kept role' b hb).put
      · exact (h.kept role' b (hk hn b hb)).put
    · rw [ho] at hb
      exact (h.kept _ b hb).put

section Routines

variable {w : Link N} {x : Exchange N.Key} {role : Role} {t : DatagramTransport N}
  {c : SecurityController}

theorem Sound.idle (h : Sound w x) (hh : Holds (w.party role).loc (w.party role).session t c)
    (hes : ∀ e ∈ es, e.letter = none) : Follows x role none (endOf t c) es := by
  have hn : es.filterMap Emission.letter = [] := by
    rw [List.filterMap_eq_nil_iff]
    exact hes
  refine ⟨?_, fun e he epoch mode hl => ?_⟩
  · rw [hn, h.ends role t c hh, Exchange.put_side]
    exact h.phase
  · rw [hes e he] at hl
    cases hl

theorem Follows.unsent (h : Follows x role none y []) : Follows x role stamp y [] :=
    ⟨h.1, List.forall_mem_nil _⟩

theorem Sound.sends (h : Sound w x)
    (hh : Holds (w.party role).loc (w.party role).session t c) (hi : c.pending = none)
    {e : Emission N} (hl : e.letter = some (.business c.epoch c.mode))
    (hk : e.key = t.outKey) : Follows x role (stampOf (w.party role)) (endOf t c) [e] := by
  have hs := h.ends role t c hh
  have hp := @Phase.sends _ _ x h.phase role (by rw [← hs]; exact hi)
  rw [← hs] at hp
  obtain ⟨_, _, _, hpe⟩ := hh
  have hst : stampOf (w.party role) = some ⟨c.mode, c.epoch, t.outKey⟩ := by
    unfold stampOf
    rw [hpe]
  refine ⟨?_, fun e' he' => ?_⟩
  · rw [List.filterMap_cons_some hl]
    exact hp
  · rw [hst, List.mem_singleton.mp he']
    exact ⟨hl, hk⟩

theorem stamps_control (hl : e.letter = some (.control epoch k)) : ∀ e' ∈ [e], Stamps none e' := by
  intro e' he' epoch' mode hb
  rw [List.mem_singleton.mp he', hl] at hb
  cases hb

section

variable (h : Sound w x) (hh : Holds (w.party role).loc (w.party role).session t c)
include h hh

theorem Sound.proposes {c' : SecurityController} {k : Control} (hk : Proposal c c' k)
    {e : Emission N} (hl : e.letter = some (.control c.epoch k)) :
    Follows x role none (endOf t c') [e] := by
  have hs := h.ends role t c hh
  have hp := @Phase.proposes _ _ x h.phase role c' k (by rw [← hs]; exact hk)
  rw [← hs] at hp
  refine ⟨?_, stamps_control hl⟩
  rw [List.filterMap_cons_some hl]
  exact hp

theorem Sound.answers (hl : .control c.epoch k ∈ x.incoming role) (hk : c.handle k = (c', .ok tr)) :
    Answers (Follows x role none) (endOf t c') c.epoch tr := by
  have hs := h.ends role t c hh
  have hr := @Phase.receives _ _ x h.phase role k c' tr (by rw [← hs]; exact hl)
    (by rw [← hs]; exact hk)
  unfold handled at hr
  rw [← hs] at hr
  rcases hr with ⟨hn, hp⟩ | ⟨r, hso, hlo, hse⟩
  · exact .inl ⟨hn, hp, List.forall_mem_nil _⟩
  refine .inr ⟨r, hso, ⟨hlo, List.forall_mem_nil _⟩,
    fun e hle => ⟨?_, stamps_control hle⟩⟩
  rw [List.filterMap_cons_some hle]
  exact hse

theorem Sound.epoch_le : c.epoch ≤ u64Max := by
  have hl := h.phase.epoch_le role
  rwa [← h.ends role t c hh] at hl

end

theorem sound_deliver (ideal : N.Ideal) (h : Sound w x) (he : Established w)
    (hn : Established (step w (.deliver role call index))) :
    ∃ x', Sound (step w (.deliver role call index)) x' := by
  obtain ⟨t, c, hh⟩ := he role
  unfold step at hn ⊢
  dsimp only at hn ⊢
  cases hd : (w.incoming role)[index]? with
  | none => exact ⟨x, h⟩
  | some d =>
    rw [hd] at hn
    dsimp only at hn ⊢
    obtain ⟨e, hv, hb, hl, -⟩ := h.network role d (List.mem_of_getElem? hd)
    rw [← hb] at hn ⊢
    refine sound_settle h role (fun _ => rfl) (absurd rfl) (leaves_receiveRecord ideal
      (w.party role).remote (w.party role).initialSession (h.kind role) hv ?_ hh
      (fun es => h.idle hh) ?_) hn
    · intro k hk
      refine @Phase.wellFormed _ _ x h.phase role k ?_
      rw [← h.ends role t c hh]
      exact hl _ hk
    · intro k c' tr hk hha
      exact h.answers hh (hl _ hk) hha

/-- **A step of two established sides keeps the session in a phase** as long as both stay
established. -/
theorem sound_step (ideal : N.Ideal) (h : Sound w x) (he : Established w)
    (hn : Established (step w input)) : ∃ x', Sound (step w input) x' := by
  have hi : ∀ {role t c}, Holds (w.party role).loc (w.party role).session t c →
      Follows x role none (endOf t c) [] := fun hh => h.idle hh (List.forall_mem_nil _)
  cases input with
  | outbound role call o =>
    obtain ⟨t, c, hh⟩ := he role
    refine sound_settle h role False.elim (fun _ b hb => keeps_takeOutbound (h.kind role) hb)
      (leaves_takeOutbound (h.kind role) (h.epoch_le hh) hh (hi hh).unsent ?_) hn
    exact fun hc e hl hke => h.sends hh hc hl hke
  | flush role call =>
    obtain ⟨t, c, hh⟩ := he role
    refine sound_settle h role False.elim (fun _ b hb => keeps_flushDeferred (h.kind role) hb)
      (leaves_flushDeferred (h.kind role) (h.epoch_le hh) hh (hi hh).unsent ?_) hn
    exact fun hc e hl hke => h.sends hh hc hl hke
  | drive role call =>
    obtain ⟨t, c, hh⟩ := he role
    exact sound_settle h role False.elim (absurd rfl) (leaves_driveServer (h.kind role)
      (h.epoch_le hh) hh (hi hh) fun c' k hk e hl => h.proposes hh hk hl)
      hn
  | retry role call =>
    obtain ⟨t, c, hh⟩ := he role
    exact sound_settle h role (fun _ => rfl) (absurd rfl) (leaves_retry (w.party role).remote
      (h.kind role) hh (hi hh)) hn
  | cleanup role request =>
    obtain ⟨t, c, hh⟩ := he role
    exact sound_settle h role False.elim (absurd rfl) (leaves_cleanupPeer request hh (hi hh)) hn
  | deliver role call index => exact sound_deliver ideal h he hn
  | runtime role shared =>
    obtain ⟨t, c, hh⟩ := he role
    have hwi : Wired False (w.party role).loc { (w.party role).loc with shared := shared } [] :=
      .of_eq rfl rfl rfl
    exact sound_settle h role False.elim (absurd rfl) (.of_stay hh rfl (hi hh)
      (List.forall_mem_nil _) hwi) hn

end Routines

theorem sound_start (h : Start w) : ∃ x, Sound w x := by
  obtain ⟨mode, epoch, s, c, hle, hf, hba, hs, hc⟩ := h.ends
  have he : ∀ {x : Exchange N.Key} {receiver bytes}, FromJoin N bytes →
      Explained x receiver bytes none := by
    rintro x receiver bytes ⟨e, hv, hby, hn⟩
    refine ⟨e, hv, hby, fun letter hl => ?_, fun epoch mode hl => ?_⟩ <;>
    · rw [hn] at hl
      cases hl
  refine ⟨⟨endOf s (.new .server mode epoch), endOf c (.new .client mode epoch), ∅, ∅⟩, ?_, h.kind,
    h.unsent, ?_, ?_, ?_⟩
  · unfold endOf
    rw [hf, hba]
    exact .calm hle (fun _ hl => absurd hl (Set.notMem_empty _))
      fun _ hl => absurd hl (Set.notMem_empty _)
  · rintro (_ | _) t' c' ⟨_, _, _, hp⟩
    · obtain ⟨_, _, _, hp'⟩ := hs
      cases hp.symm.trans hp'
      rfl
    · obtain ⟨_, _, _, hp'⟩ := hc
      cases hp.symm.trans hp'
      rfl
  · intro role d hd
    obtain ⟨hst, hj⟩ := h.network role d hd
    rw [hst]
    exact he hj
  · exact fun role b hb => he (h.kept role b hb)

theorem sound_of_reach (ideal : N.Ideal) (h : (machine N).Reach (fun w _ => Established w) w)
    (he : Established w) :
    ∃ x, Sound w x := by
  refine Machine.Reach.invariant (I := fun w => Established w → ∃ x, Sound w x) ?_ ?_ h he
  · exact fun w hst _ => sound_start hst
  intro w input hs hg hn
  obtain ⟨x, hs⟩ := hs hg
  exact sound_step ideal hs hg hn

/-! ### Agreement -/

/-- An established side takes the record of a datagram as a message of the other side's
application. -/
structure Accepts (p : Party N) (call : Call N) (t : DatagramTransport N) (c : SecurityController)
    (bytes : Bytes) (record : Record) : Prop where
  decoded : decodeRecord bytes (recordLimit p.setup p.loc.shared.config) = .ok record
  accepted : (handleEstablished p.setup call p.loc p.session t c record).result = .ok ()
  business : ∃ m, (openMessage (p.loc.shared.config.maxBodyLen + 64) t c record).2 = .ok m ∧
    (m.kind = .data ∨ m.kind = .gameControl)

variable {t : DatagramTransport N} {c : SecurityController}

theorem Accepts.epoch_eq (h : Accepts p call t c bytes record) : record.epoch = c.epoch := by
  by_contra hn
  have ha := h.accepted
  unfold handleEstablished at ha
  rw [if_pos (by simp [hn])] at ha
  cases ha

theorem Sound.reads (ideal : N.Ideal) (h : Sound w x) (hd : d ∈ w.incoming role)
    (hh : Holds (w.party role).loc (w.party role).session t c)
    (ha : Accepts (w.party role) call t c d.bytes record) :
    ∃ s, d.stamp = some s ∧ s.mode = c.mode ∧ s.epoch = c.epoch ∧ (record.kind = .protectedRecord →
      s.key = t.inKey) := by
  obtain ⟨e, hv, hby, hl, hst⟩ := h.network role d hd
  have hde := ha.decoded
  rw [← hby] at hde
  have hr := eq_of_decodeRecord hv.epoch_le hv.length_le hde
  obtain ⟨m, ho, hki⟩ := ha.business
  rw [hr] at ho
  obtain ⟨⟨mode, hb⟩, hke⟩ :=
    business_of_open ideal hv.means (Prod.ext rfl ho) hki
  have he := ha.epoch_eq
  rw [hr] at he ⊢
  cases hs : d.stamp with
  | none =>
    rw [hs] at hst
    exact absurd hb (hst _ _)
  | some s =>
    rw [hs] at hst
    have hsa := hst.1.symm.trans hb
    have hme := hl _ hst.1
    simp only [Option.some.injEq, Letter.business.injEq] at hsa
    have hsi := h.ends role t c hh
    rw [hsa.1, he] at hme
    have hm := @Phase.mode_eq _ _ x h.phase role s.mode (by rw [← hsi]; exact hme)
    rw [← hsi] at hm
    exact ⟨s, rfl, hm, hsa.1.trans he, fun hk => hst.2.symm.trans (hke hk)⟩

/-- **Whatever is lost, duplicated or reordered, the two sides of a UDP session agree on epochs,
modes and keys**: the client is at most one epoch ahead, sides of one epoch are in one mode, a
server that is not in a transition has the client's epoch and mode and the keys it uses, and
business data is read in the mode and epoch and under the key its sender used. A controller is left
alone by a call that fails. -/
theorem udp_epochs_agree (ideal : N.Ideal) :
    (∀ w, (machine N).Reach (fun w _ => Established w) w → ∀ s cs c cc,
      Holds w.server.loc w.server.session s cs → Holds w.client.loc w.client.session c cc →
      Agreed (endOf s cs) (endOf c cc)) ∧
    (∀ w, (machine N).Reach (fun w _ => Established w) w → Established w →
      ∀ role call t c, ∀ d ∈ w.incoming role, ∀ record,
      Holds (w.party role).loc (w.party role).session t c →
      Accepts (w.party role) call t c d.bytes record →
      ∃ s, d.stamp = some s ∧ s.mode = c.mode ∧ s.epoch = c.epoch ∧
        (record.kind = .protectedRecord → s.key = t.inKey)) ∧
    ∀ (c c' : SecurityController) k e, c.handle k = (c', .error e) → c' = c := by
  refine ⟨?_, ?_, fun c c' k e => handle_error⟩
  · intro w hr s cs c cc hse hc
    obtain ⟨x, hs⟩ := sound_of_reach ideal hr
      (fun role => role.casesOn ⟨s, cs, hse⟩ ⟨c, cc, hc⟩)
    have hag := hs.phase.agreed
    rwa [← show endOf s cs = x.server from hs.ends .server s cs hse,
      ← show endOf c cc = x.client from hs.ends .client c cc hc] at hag
  · intro w hr he role call t c d hd record hh ha
    obtain ⟨x, hs⟩ := sound_of_reach ideal hr he
    exact hs.reads ideal hd hh ha

def joinedSide (setup : Setup tagNoise) (role : Role) (keys : TagKey × TagKey)
    (commands : List SecurityCommand) : Party tagNoise where
  setup := setup
  remote := none
  initialSession := none
  session := 1
  loc :=
    { slot := { Slot.empty tagNoise with
        peer := some (.established 1 ⟨keys.1, keys.2, 1, .empty⟩ (.new role .encrypted 1)
          (role = .server) 0 none) }
      shared := { Shared.initial .production with
        sessions := (∅ : Table Handle SessionRoute).insert 1
          ⟨1, .udp home 0, true, false, false, true⟩
        commands := (∅ : Table Handle (List SecurityCommand)).insert 1 commands }
      kcpQueuedBytes := 0
      deferredCount := 0
      sent := []
      handed := [] }

def session : Link tagNoise where
  server := joinedSide (server .udp) .server (⟨5, 9, 1⟩, ⟨5, 9, 0⟩) [.rekey]
  client := joinedSide ⟨1, .udp, .adaptiveClient [1], none⟩ .client (⟨5, 9, 0⟩, ⟨5, 9, 1⟩) []
  toClient := []
  toServer := []

theorem start_session : Start session where
  kind := by rintro (_ | _) <;> rfl
  ends := ⟨.encrypted, 1, ⟨⟨5, 9, 1⟩, ⟨5, 9, 0⟩, 1, .empty⟩, ⟨⟨5, 9, 0⟩, ⟨5, 9, 1⟩, 1, .empty⟩,
    by decide, rfl, rfl, ⟨true, 0, none, rfl⟩, ⟨false, 0, none, rfl⟩⟩
  unsent := by rintro (_ | _) <;> rfl
  kept := by rintro (_ | _) b (⟨p, hp, -⟩ | ⟨request, hr⟩) <;> first | cases hp | cases hr
  network := by rintro (_ | _) d hd <;> exact absurd hd List.not_mem_nil

/-- What a side holds, if it is established. -/
def ends (p : Party N) : Option (DatagramTransport N × SecurityController) :=
  match p.loc.slot.peer with
  | some (.established s t c _ _ _) => if s = p.session then some (t, c) else none
  | _ => none

theorem holds_of_ends (h : ends p = some (t, c)) : Holds p.loc p.session t c := by
  unfold ends at h
  split at h
  · rename_i hp
    split_ifs at h with hs
    cases h
    exact ⟨_, _, _, hs ▸ hp⟩
  · cases h

theorem established_of_ends (hse : (ends w.server).isSome) (hc : (ends w.client).isSome) :
    Established w := by
  have hs : ∀ p : Party N, (ends p).isSome → ∃ t c, Holds p.loc p.session t c := by
    intro p h
    obtain ⟨⟨t, c⟩, he⟩ := Option.isSome_iff_exists.mp h
    exact ⟨t, c, holds_of_ends he⟩
  rintro (_ | _)
  · exact hs w.server hse
  · exact hs w.client hc

def proposing : Link tagNoise :=
  (machine tagNoise).run session
    [.outbound .server (calm home 1 (9 : UInt64)) ⟨frameOf 0 [1], .data, none, 1, 0⟩,
      .drive .server (calm home 2 (9 : UInt64))]

def underway : Datagram tagNoise := proposing.toClient.headD ⟨[], none⟩

/-- With the proposal under way the sides agree, and the client reads the message as it was sent. -/
theorem udp_epochs_agree_proposing :
    (∃ s cs c cc, Holds proposing.server.loc proposing.server.session s cs ∧
      Holds proposing.client.loc proposing.client.session c cc ∧ cs.isTransitioning = true ∧
      Agreed (endOf s cs) (endOf c cc)) ∧
    ∃ call t c record, Accepts proposing.client call t c underway.bytes record ∧
      ∃ s, underway.stamp = some s ∧ s.mode = c.mode ∧ s.epoch = c.epoch ∧
        (record.kind = .protectedRecord → s.key = t.inKey) := by
  have h := udp_epochs_agree ideal_tagNoise
  have hr : (machine tagNoise).Reach (fun w _ => Established w) proposing :=
    Machine.reach_run _ (.start start_session)
      ⟨established_of_ends (by decide +kernel) (by decide +kernel),
        established_of_ends (by decide +kernel) (by decide +kernel), trivial⟩
  have hs : Holds proposing.server.loc proposing.server.session
      ⟨⟨5, 9, 1⟩, ⟨5, 9, 0⟩, 3, .empty⟩ ⟨.server, .encrypted, 1, some (.serverRekeyReady 2)⟩ :=
    holds_of_ends (by decide +kernel)
  have hc : Holds proposing.client.loc proposing.client.session
      ⟨⟨5, 9, 0⟩, ⟨5, 9, 1⟩, 1, .empty⟩ (.new .client .encrypted 1) :=
    holds_of_ends (by decide +kernel)
  have ha : Accepts proposing.client (calm home 3 (9 : UInt64))
      ⟨⟨5, 9, 0⟩, ⟨5, 9, 1⟩, 1, .empty⟩ (.new .client .encrypted 1) underway.bytes
      ⟨.protectedRecord, 1, underway.bytes.drop 20⟩ :=
    ⟨by decide +kernel, by decide +kernel, ⟨.data, frameOf 0 [1]⟩, by decide +kernel, .inl rfl⟩
  have hre := h.2.1 proposing hr
    (established_of_ends (by decide +kernel) (by decide +kernel)) .client _ _ _ underway
    (by decide +kernel) _ hc ha
  exact ⟨⟨_, _, _, _, hs, hc, rfl, h.1 _ hr _ _ _ _ hs hc⟩,
    _, _, _, _, ha, hre⟩

end Rnet.Transport.UdpAgreement
