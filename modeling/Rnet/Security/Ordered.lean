import Rnet.Lib.SealedChannel
import Rnet.Security.Controller

/-! # Security barriers over an ordered channel

Server and client hold a controller and a transport each, and packets are under way in order in both
directions. `Phase` lists the situations two honest ends can be in: a transition passes through
proposal, ready, commit and acknowledgement, and in each of these it is known which controls and
which business packets are under way, at which epoch and under which keys.

The rules at the end say that every phase is left for another one only: when an end sends business
packets, when the server proposes a transition, and when a packet arrives. In particular every
packet that arrives is accepted (`Delivers`). Nothing here depends on how packets are encoded or
sealed; the drivers instantiate the discipline of their transport. -/

namespace Rnet.Security.Ordered

open Rnet.Core Lib.BigEndian Lib.SealedChannel Protocol.Records Controller

/-! ### Transitions -/

/-- The two security transitions. -/
inductive Change
  | switch (mode : SecurityMode)
  | rekey

namespace Change

def mode : Change → SecurityMode → SecurityMode
  | switch m, _ => m
  | rekey, m => m

def propose (epoch : ℕ) : Change → Control
  | switch m => .switch .switchPropose epoch m
  | rekey => .barrier .rekeyPropose epoch

def ready (epoch : ℕ) : Change → Control
  | switch _ => .barrier .switchReady epoch
  | rekey => .barrier .rekeyReady epoch

def commit (epoch : ℕ) : Change → Control
  | switch _ => .barrier .switchCommit epoch
  | rekey => .barrier .rekeyCommit epoch

def ack (epoch : ℕ) : Change → Control
  | switch _ => .barrier .switchAck epoch
  | rekey => .barrier .rekeyAck epoch

def awaitReady (epoch : ℕ) : Change → Pending
  | switch m => .serverSwitchReady epoch m
  | rekey => .serverRekeyReady epoch

def awaitCommit (epoch : ℕ) : Change → Pending
  | switch m => .clientSwitchCommit epoch m
  | rekey => .clientRekeyCommit epoch

def awaitAck (epoch : ℕ) : Change → Pending
  | switch m => .serverSwitchAck epoch m
  | rekey => .serverRekeyAck epoch

def serverEffect : Change → Effect
  | switch _ => .none
  | rekey => .rekey

def clientEffect : Change → Effect
  | switch m => .setMode m
  | rekey => .rekey

def finalEffect : Change → Effect
  | switch m => .setMode m
  | rekey => .advanceEpoch

variable (q : Change) {m : SecurityMode} {e n : ℕ}

theorem handle_propose (h : e + 1 ≤ u64Max) :
    SecurityController.handle ⟨.client, m, e, none⟩ (q.propose (e + 1)) =
      (⟨.client, m, e, some (q.awaitCommit (e + 1))⟩, .ok (.respond (q.ready (e + 1)))) := by
  cases q with
  | switch => exact handle_of_barrier (.clientSwitchPropose h)
  | rekey => exact handle_of_barrier (.clientRekeyPropose h)

theorem handle_ready :
    SecurityController.handle ⟨.server, m, e, some (q.awaitReady n)⟩ (q.ready n) =
      (⟨.server, m, e, some (q.awaitAck n)⟩,
        .ok ⟨.none, some (q.commit n), q.serverEffect⟩) := by
  cases q with
  | switch => exact handle_of_barrier .serverSwitchReady
  | rekey => exact handle_of_barrier .serverRekeyReady

theorem handle_commit :
    SecurityController.handle ⟨.client, m, e, some (q.awaitCommit n)⟩ (q.commit n) =
      (⟨.client, q.mode m, n, none⟩, .ok ⟨q.clientEffect, some (q.ack n), .none⟩) := by
  cases q with
  | switch => exact handle_of_barrier .clientSwitchCommit
  | rekey => exact handle_of_barrier .clientRekeyCommit

theorem handle_ack :
    SecurityController.handle ⟨.server, m, e, some (q.awaitAck n)⟩ (q.ack n) =
      (⟨.server, q.mode m, n, none⟩, .ok ⟨q.finalEffect, none, .none⟩) := by
  cases q with
  | switch => exact handle_of_barrier .serverSwitchAck
  | rekey => exact handle_of_barrier .serverRekeyAck

theorem of_proposal (h : Proposal c c' k) :
    ∃ (q : Change) (m : SecurityMode) (e : ℕ), e + 1 ≤ u64Max ∧ c = ⟨.server, m, e, none⟩ ∧ c' =
      ⟨.server, m, e, some (q.awaitReady (e + 1))⟩ ∧ k = q.propose (e + 1) := by
  cases h with
  | switch _ hl => exact ⟨.switch _, _, _, hl, rfl, rfl, rfl⟩
  | rekey _ hl => exact ⟨.rekey, _, _, hl, rfl, rfl, rfl⟩

theorem wellFormed (h : e + 1 ≤ u64Max) : (q.propose (e + 1)).WellFormed ∧
    (q.ready (e + 1)).WellFormed ∧ (q.commit (e + 1)).WellFormed ∧
      (q.ack (e + 1)).WellFormed := by
  have hb : ∀ k, k ≠ ControlKind.switchPropose → (Control.barrier k (e + 1)).WellFormed :=
    fun k hk => ⟨Nat.succ_pos e, h, by simp [Control.barrier, hk]⟩
  cases q with
  | switch m =>
    refine ⟨⟨Nat.succ_pos e, h, by simp [propose, Control.switch]⟩, ?_, ?_, ?_⟩ <;>
      exact hb _ (by decide)
  | rekey => refine ⟨?_, ?_, ?_, ?_⟩ <;> exact hb _ (by decide)

end Change

/-! ### Packets -/

/-- A packet under way: the epoch it was sent in and data in the clear, or a message together with
the ciphertext that carries it. -/
inductive Packet (C : Type)
  | plain (epoch : ℕ) (data : Bytes)
  | wrapped (epoch : ℕ) (message : ProtectedMessage) (cipher : C)

def controlMessage (control : Control) : ProtectedMessage := ⟨.control, encodeControl control⟩

variable {T C : Type}

def Packet.sealedPart : Packet C → Option (ProtectedMessage × C)
  | plain _ _ => none
  | wrapped _ message cipher => some (message, cipher)

def sealedParts (packets : List (Packet C)) : List (ProtectedMessage × C) :=
  packets.filterMap Packet.sealedPart

@[simp] theorem sealedParts_nil : sealedParts ([] : List (Packet C)) = [] := rfl

@[simp] theorem sealedParts_append (a b : List (Packet C)) :
    sealedParts (a ++ b) = sealedParts a ++ sealedParts b := List.filterMap_append ..

@[simp] theorem sealedParts_plain (epoch : ℕ) (data : Bytes) (a : List (Packet C)) :
    sealedParts (.plain epoch data :: a) = sealedParts a := rfl

/-- A packet of the application in a mode and an epoch; `allowed` is what the receiving driver takes
from it. -/
def Business (allowed : ProtectedMessage → Prop) (mode : SecurityMode) (epoch : ℕ) :
    Packet C → Prop
  | .plain e data => e = epoch ∧ mode = .plaintext ∧ allowed ⟨.data, data⟩
  | .wrapped e message _ => e = epoch ∧ message.kind ≠ .control ∧
    (message.kind = .data → mode = .encrypted) ∧ allowed message

def Carries (epoch : ℕ) (control : Control) (p : Packet C) : Prop :=
  ∃ cipher, p = .wrapped epoch (controlMessage control) cipher

/-! ### Two ends -/

/-- Controller and transport of one side. -/
structure Side (T : Type) where
  controller : SecurityController
  transport : T

/-- Both sides and the packets under way. -/
structure Exchange (T C : Type) where
  server : Side T
  client : Side T
  toClient : List (Packet C)
  toServer : List (Packet C)

namespace Exchange

def side (w : Exchange T C) : Role → Side T
  | .server => w.server
  | .client => w.client

def incoming (w : Exchange T C) : Role → List (Packet C)
  | .server => w.toServer
  | .client => w.toClient

/-- An end changed, has `rest` left to receive and sent `out`. -/
def put (w : Exchange T C) (role : Role) (s : Side T) (rest out : List (Packet C)) :
    Exchange T C :=
  match role with
  | .server => ⟨s, w.client, w.toClient ++ out, rest⟩
  | .client => ⟨w.server, s, rest, w.toServer ++ out⟩

end Exchange

/-- Only a rekey touches the transport. -/
def applied (D : Discipline T ProtectedMessage C) (effect : Effect) (t : T) : T :=
  if effect = .rekey then D.rekey t else t

/-- Both directions between two transports, with the packets under way. -/
abbrev Joined (D : Discipline T ProtectedMessage C) (s c : T) (sc cs : List (Packet C)) : Prop :=
  Linked D s c (sealedParts sc) (sealedParts cs)

inductive Phase (D : Discipline T ProtectedMessage C) (allowed : ProtectedMessage → Prop) :
    Exchange T C → Prop
  /-- no transition -/
  | calm {m : SecurityMode} {e : ℕ} {s c : T} {sc cs : List (Packet C)} (he : e ≤ u64Max)
    (hlinked : Joined D s c sc cs) (hsc : ∀ p ∈ sc, Business allowed m e p)
    (hcs : ∀ p ∈ cs, Business allowed m e p) :
    Phase D allowed ⟨⟨⟨.server, m, e, none⟩, s⟩, ⟨⟨.client, m, e, none⟩, c⟩, sc, cs⟩
  /-- the proposal is under way, behind everything else the server sent -/
  | proposed (q : Change) {m : SecurityMode} {e : ℕ} {s c : T} {sc cs : List (Packet C)}
    {p : Packet C} (he : e + 1 ≤ u64Max) (hlinked : Joined D s c (sc ++ [p]) cs)
    (hp : Carries e (q.propose (e + 1)) p) (hsc : ∀ p ∈ sc, Business allowed m e p)
    (hcs : ∀ p ∈ cs, Business allowed m e p) :
    Phase D allowed ⟨⟨⟨.server, m, e, some (q.awaitReady (e + 1))⟩, s⟩,
      ⟨⟨.client, m, e, none⟩, c⟩, sc ++ [p], cs⟩
  /-- the client is ready and says so behind everything else it sent -/
  | readied (q : Change) {m : SecurityMode} {e : ℕ} {s c : T} {cs : List (Packet C)}
    {p : Packet C} (he : e + 1 ≤ u64Max) (hlinked : Joined D s c [] (cs ++ [p]))
    (hp : Carries e (q.ready (e + 1)) p) (hcs : ∀ p ∈ cs, Business allowed m e p) :
    Phase D allowed ⟨⟨⟨.server, m, e, some (q.awaitReady (e + 1))⟩, s⟩,
      ⟨⟨.client, m, e, some (q.awaitCommit (e + 1))⟩, c⟩, [], cs ++ [p]⟩
  /-- the commit is under way alone; the server may already have changed its keys -/
  | committed (q : Change) {m : SecurityMode} {e : ℕ} {s c : T} {p : Packet C}
    (he : e + 1 ≤ u64Max) (hlinked : Joined D s c [p] [])
    (hp : Carries e (q.commit (e + 1)) p) :
    Phase D allowed ⟨⟨⟨.server, m, e, some (q.awaitAck (e + 1))⟩, applied D q.serverEffect s⟩,
      ⟨⟨.client, m, e, some (q.awaitCommit (e + 1))⟩, c⟩, [p], []⟩
  /-- the client has changed; its acknowledgement is ahead of everything it sends in the new epoch -/
  | acked (q : Change) {m : SecurityMode} {e : ℕ} {s c : T} {cs : List (Packet C)}
    {p : Packet C} (he : e + 1 ≤ u64Max) (hlinked : Joined D s c [] (p :: cs))
    (hp : Carries e (q.ack (e + 1)) p) (hcs : ∀ p ∈ cs, Business allowed (q.mode m) (e + 1) p) :
    Phase D allowed ⟨⟨⟨.server, m, e, some (q.awaitAck (e + 1))⟩, s⟩,
      ⟨⟨.client, q.mode m, e + 1, none⟩, c⟩, [], p :: cs⟩

/-- An end accepts a packet, and `K` holds of the end it becomes and the packets it answers with,
whatever ciphertext the answer gets. -/
inductive Delivers (D : Discipline T ProtectedMessage C) (allowed : ProtectedMessage → Prop)
    (side : Side T) (p : Packet C) (K : Side T → List (Packet C) → Prop) : Prop
  /-- data in the clear -/
  | plain {data : Bytes} (hp : p = .plain side.controller.epoch data)
    (hmode : side.controller.mode = .plaintext) (hallowed : allowed ⟨.data, data⟩)
    (hk : K side [])
  /-- a message of the application -/
  | business {message : ProtectedMessage} {cipher : C} {t : T}
    (hp : p = .wrapped side.controller.epoch message cipher)
    (hopens : D.opens side.transport cipher = some (t, message)) (hkind : message.kind ≠ .control)
    (hmode : message.kind = .data → side.controller.mode = .encrypted)
    (hallowed : allowed message) (hk : K ⟨side.controller, t⟩ [])
  /-- a control, without an answer -/
  | silent {control : Control} {cipher : C} {t : T} {c : SecurityController} {before : Effect}
    (hp : p = .wrapped side.controller.epoch (controlMessage control) cipher)
    (hopens : D.opens side.transport cipher = some (t, controlMessage control))
    (hwell : control.WellFormed)
    (hhandle : side.controller.handle control = (c, .ok ⟨before, none, .none⟩))
    (hk : K ⟨c, applied D before t⟩ [])
  /-- a control with its answer -/
  | answered {control answer : Control} {cipher : C} {t : T} {c : SecurityController}
    {before after : Effect}
    (hp : p = .wrapped side.controller.epoch (controlMessage control) cipher)
    (hopens : D.opens side.transport cipher = some (t, controlMessage control))
    (hwell : control.WellFormed)
    (hhandle : side.controller.handle control = (c, .ok ⟨before, some answer, after⟩))
    (hk : ∀ t' cipher', D.Seals (applied D before t) (controlMessage answer) t' cipher' →
      K ⟨c, applied D after t'⟩
        [.wrapped side.controller.epoch (controlMessage answer) cipher'])

/-! ### Rules -/

variable {D : Discipline T ProtectedMessage C} {allowed : ProtectedMessage → Prop}

/-- What sending a packet does to the sender's transport. -/
def Emits (D : Discipline T ProtectedMessage C) (t : T) (p : Packet C) (t' : T) : Prop :=
  match p with
  | .plain _ _ => t' = t
  | .wrapped _ message cipher => D.Seals t message t' cipher

variable {s c : T}

theorem joined_emits (h : Joined D s c sc cs) (hp : Emits D s p s') :
    Joined D s' c (sc ++ [p]) cs := by
  cases p with
  | plain epoch data =>
    cases hp
    rw [Joined, sealedParts_append, sealedParts_plain, sealedParts_nil, List.append_nil]
    exact h
  | wrapped epoch message cipher =>
    rw [Joined, sealedParts_append]
    exact h.seals hp

theorem mem_append_singleton {P : Packet C → Prop} (hl : ∀ x ∈ l, P x) (hp : P p) :
    ∀ x ∈ l ++ [p], P x := by
  intro x hx
  rw [List.mem_append, List.mem_singleton] at hx
  exact hx.elim (hl x) fun he => he ▸ hp

variable {w : Exchange T C} {t : T}

theorem Phase.server_sends (h : Phase D allowed w) (hi : w.server.controller.pending = none)
    (hp : Business allowed w.server.controller.mode w.server.controller.epoch p)
    (ht : Emits D w.server.transport p t) :
    Phase D allowed ⟨⟨w.server.controller, t⟩, w.client, w.toClient ++ [p], w.toServer⟩ := by
  cases h with
  | calm he hl hs hc =>
    exact .calm he (joined_emits hl ht) (mem_append_singleton hs hp) hc
  | proposed | readied | committed | acked => cases hi

/-- The client sends while it waits for nothing: between transitions, before it has seen a proposal
and as soon as it has changed. -/
theorem Phase.client_sends (h : Phase D allowed w) (hi : w.client.controller.pending = none)
    (hp : Business allowed w.client.controller.mode w.client.controller.epoch p)
    (ht : Emits D w.client.transport p t) :
    Phase D allowed ⟨w.server, ⟨w.client.controller, t⟩, w.toClient, w.toServer ++ [p]⟩ := by
  cases h with
  | calm he hl hs hc =>
    exact .calm he (joined_emits hl.swap ht).swap hs (mem_append_singleton hc hp)
  | proposed q he hl hpr hs hc =>
    exact .proposed q he (joined_emits hl.swap ht).swap hpr hs
      (mem_append_singleton hc hp)
  | readied | committed => cases hi
  | acked q he hl ha hc =>
    exact .acked q he (joined_emits hl.swap ht).swap ha (mem_append_singleton hc hp)

theorem Phase.sends {w : Exchange T C} {role : Role} {p : Packet C} {t : T} (h : Phase D allowed w)
    (hi : (w.side role).controller.pending = none)
    (hp : Business allowed (w.side role).controller.mode (w.side role).controller.epoch p)
    (ht : Emits D (w.side role).transport p t) :
    Phase D allowed (w.put role ⟨(w.side role).controller, t⟩ (w.incoming role) [p]) := by
  cases role with
  | server => exact h.server_sends hi hp ht
  | client => exact h.client_sends hi hp ht

theorem Phase.proposes {w : Exchange T C} {role : Role} {c : SecurityController} {k : Control}
    {cipher : C} {t : T} (h : Phase D allowed w) (hk : Proposal (w.side role).controller c k)
    (ht : D.Seals (w.side role).transport (controlMessage k) t cipher) :
    Phase D allowed (w.put role ⟨c, t⟩ (w.incoming role)
      [.wrapped (w.side role).controller.epoch (controlMessage k) cipher]) := by
  obtain ⟨q, m, e, hle, hc, rfl, rfl⟩ := Change.of_proposal hk
  cases role with
  | client => cases h <;> cases hc
  | server =>
  cases h with
  | calm he hl hs hcs =>
    cases hc
    refine .proposed q hle (joined_emits hl ?_) ⟨cipher, rfl⟩ hs hcs
    exact ht
  | proposed | readied | committed | acked => cases hc

theorem Phase.server_wastes (h : Phase D allowed w) (hi : w.server.controller.pending = none)
    (ht : D.Wastes w.server.transport t) :
    Phase D allowed ⟨⟨w.server.controller, t⟩, w.client, w.toClient, w.toServer⟩ := by
  cases h with
  | calm he hl hs hc => exact .calm he (hl.wastes ht) hs hc
  | proposed | readied | committed | acked => cases hi

theorem Phase.client_wastes (h : Phase D allowed w) (hi : w.client.controller.pending = none)
    (ht : D.Wastes w.client.transport t) :
    Phase D allowed ⟨w.server, ⟨w.client.controller, t⟩, w.toClient, w.toServer⟩ := by
  cases h with
  | calm he hl hs hc => exact .calm he (hl.swap.wastes ht).swap hs hc
  | proposed q he hl hp hs hc =>
    exact .proposed q he (hl.swap.wastes ht).swap hp hs hc
  | readied | committed => cases hi
  | acked q he hl hp hc => exact .acked q he (hl.swap.wastes ht).swap hp hc

theorem Phase.wastes (h : Phase D allowed w) (hi : (w.side role).controller.pending = none)
    (ht : D.Wastes (w.side role).transport t) :
    Phase D allowed (w.put role ⟨(w.side role).controller, t⟩ (w.incoming role) []) := by
  cases role with
  | server =>
    rw [Exchange.put, List.append_nil]
    exact h.server_wastes hi ht
  | client =>
    rw [Exchange.put, List.append_nil]
    exact h.client_wastes hi ht

/-! ### Arrivals -/

variable {rest : List (Packet C)}

theorem delivers_business (hp : Business allowed side.controller.mode side.controller.epoch p)
    (hl : Joined D x side.transport (p :: rest) back)
    (hk : ∀ t, Joined D x t rest back → K ⟨side.controller, t⟩ []) :
    Delivers D allowed side p K := by
  cases p with
  | plain epoch data =>
    obtain ⟨rfl, hm, ha⟩ := hp
    exact .plain rfl hm ha (hk side.transport hl)
  | wrapped epoch message cipher =>
    obtain ⟨rfl, hki, hm, ha⟩ := hp
    obtain ⟨t, ho, hl⟩ := Linked.opens hl
    exact .business rfl ho hki hm ha (hk t hl)

theorem joined_answer (e : ℕ) (h : Joined D s c sc cs)
    (ht : D.Seals c (controlMessage k) c' cipher) :
    Joined D s c' sc (cs ++ [.wrapped e (controlMessage k) cipher]) :=
  (joined_emits h.swap (p := .wrapped e (controlMessage k) cipher) ht).swap

theorem joined_changed (q : Change) (h : Joined D s c [] []) :
    Joined D (applied D q.serverEffect s) (applied D q.clientEffect c) [] [] := by
  cases q with
  | switch m => exact h
  | rekey => exact h.rekeys

/-- **Every packet that arrives at the client is accepted**, and leaves the ends in a phase. -/
theorem Phase.client_receives (h : Phase D allowed w) (hf : w.toClient = p :: rest) :
    Delivers D allowed w.client p fun side out => Phase D allowed ⟨w.server, side, rest,
      w.toServer ++ out⟩ := by
  cases h with
  | calm he hl hs hc =>
    subst hf
    refine delivers_business (hs p List.mem_cons_self) hl fun t ht => ?_
    rw [List.append_nil]
    exact .calm he ht (fun x hx => hs x (List.mem_cons_of_mem _ hx)) hc
  | @proposed q m e s c sc cs k he hl hk hs hc =>
    cases sc with
    | nil =>
      -- the proposal itself: the client becomes ready
      obtain ⟨rfl, rfl⟩ := List.cons.inj hf
      obtain ⟨cipher, rfl⟩ := hk
      obtain ⟨t, ho, hl⟩ := Linked.opens hl
      refine .answered rfl ho (q.wellFormed he).1 (q.handle_propose he) fun t' y hy => ?_
      exact .readied q he (joined_answer e hl hy) ⟨y, rfl⟩ hc
    | cons x sc =>
      obtain ⟨rfl, rfl⟩ := List.cons.inj hf
      refine delivers_business (hs x List.mem_cons_self) hl fun t ht => ?_
      rw [List.append_nil]
      exact .proposed q he ht hk (fun y hy => hs y (List.mem_cons_of_mem _ hy)) hc
  | readied => cases hf
  | @committed q m e s c k he hl hk =>
    obtain ⟨rfl, rfl⟩ := List.cons.inj hf
    obtain ⟨cipher, rfl⟩ := hk
    obtain ⟨t, ho, hl⟩ := Linked.opens hl
    refine .answered rfl ho (q.wellFormed he).2.2.1 q.handle_commit fun t' y hy => ?_
    exact .acked q he (joined_answer e (joined_changed q hl) hy) ⟨y, rfl⟩
      fun _ hx => absurd hx List.not_mem_nil
  | acked => cases hf

/-- **Every packet that arrives at the server is accepted**, and leaves the ends in a phase. -/
theorem Phase.server_receives (h : Phase D allowed w) (hf : w.toServer = p :: rest) :
    Delivers D allowed w.server p fun side out => Phase D allowed ⟨side, w.client,
      w.toClient ++ out, rest⟩ := by
  cases h with
  | calm he hl hs hc =>
    subst hf
    refine delivers_business (hc p List.mem_cons_self) hl.swap fun t ht => ?_
    rw [List.append_nil]
    exact .calm he ht.swap hs fun x hx => hc x (List.mem_cons_of_mem _ hx)
  | proposed q he hl hk hs hc =>
    subst hf
    refine delivers_business (hc p List.mem_cons_self) hl.swap fun t ht => ?_
    rw [List.append_nil]
    exact .proposed q he ht.swap hk hs fun x hx => hc x (List.mem_cons_of_mem _ hx)
  | @readied q m e s c cs k he hl hk hc =>
    cases cs with
    | nil =>
      -- the client is ready: the commit leaves under the keys it was promised
      obtain ⟨rfl, rfl⟩ := List.cons.inj hf
      obtain ⟨cipher, rfl⟩ := hk
      obtain ⟨t, ho, hl⟩ := Linked.opens hl.swap
      refine .answered rfl ho (q.wellFormed he).2.1 q.handle_ready fun t' y hy => ?_
      exact .committed q he (joined_answer e hl hy).swap ⟨y, rfl⟩
    | cons x cs =>
      obtain ⟨rfl, rfl⟩ := List.cons.inj hf
      refine delivers_business (hc x List.mem_cons_self) hl.swap fun t ht => ?_
      rw [List.append_nil]
      exact .readied q he ht.swap hk fun y hy => hc y (List.mem_cons_of_mem _ hy)
  | committed => cases hf
  | @acked q m e s c cs k he hl hk hc =>
    obtain ⟨rfl, rfl⟩ := List.cons.inj hf
    obtain ⟨cipher, rfl⟩ := hk
    obtain ⟨t, ho, hl⟩ := Linked.opens hl.swap
    refine .silent rfl ho (q.wellFormed he).2.2.2 q.handle_ack ?_
    have hfi : applied D q.finalEffect t = t := by cases q <;> rfl
    rw [hfi]
    exact .calm he hl.swap (fun _ hx => absurd hx List.not_mem_nil) hc

/-- **Every packet that arrives is accepted.** -/
theorem Phase.receives {w : Exchange T C} {role : Role} {p : Packet C} {rest : List (Packet C)}
    (h : Phase D allowed w) (hf : w.incoming role = p :: rest) :
    Delivers D allowed (w.side role) p fun side out => Phase D allowed (w.put role side rest out) := by
  cases role with
  | server => exact h.server_receives hf
  | client => exact h.client_receives hf

theorem Exchange.put_self (w : Exchange T C) (role : Role) :
    w.put role (w.side role) (w.incoming role) [] = w := by
  cases role <;> simp [Exchange.put, Exchange.side, Exchange.incoming]

theorem Phase.epoch_le (h : Phase D allowed w) (role : Role) :
    (w.side role).controller.epoch ≤ u64Max := by
  have hb : w.server.controller.epoch ≤ u64Max ∧ w.client.controller.epoch ≤ u64Max := by
    cases h with
    | calm he => exact ⟨he, he⟩
    | proposed _ he | readied _ he
    | committed _ he => exact ⟨(Nat.le_succ _).trans he, (Nat.le_succ _).trans he⟩
    | acked _ he => exact ⟨(Nat.le_succ _).trans he, he⟩
  cases role with
  | server => exact hb.1
  | client => exact hb.2

/-! ### What an accepted packet says -/

def Packet.record : Packet Bytes → Record
  | plain epoch data => ⟨.plainData, epoch, data⟩
  | wrapped epoch _ cipher => ⟨.protectedRecord, epoch, cipher⟩

def Packet.message : Packet C → ProtectedMessage
  | plain _ data => ⟨.data, data⟩
  | wrapped _ message _ => message

/-- A record that carries `message` suits a controller: it is of its epoch, data comes in the clear
exactly in plaintext mode, and a control is handled. -/
structure Suits (c : SecurityController) (record : Record) (message : ProtectedMessage) : Prop where
  epoch : record.epoch = c.epoch
  mode : message.kind = .data → (record.kind = .plainData ↔ c.mode = .plaintext)
  handled : message.kind = .control → ∃ control c' t,
    decodeControl message.payload = .ok control ∧ c.handle control = (c', .ok t)

theorem suits_of_delivers {D : Discipline T ProtectedMessage Bytes}
    (h : Delivers D allowed side p K) : Suits side.controller p.record p.message := by
  cases h with
  | plain hp hmo =>
    subst hp
    exact ⟨rfl, fun _ => ⟨fun _ => hmo, fun _ => rfl⟩, fun hc => by cases hc⟩
  | business hp _ hk hmo =>
    subst hp
    refine ⟨rfl, fun hd => ⟨fun hc => (by cases hc), fun hm => ?_⟩, fun hc => absurd hc hk⟩
    rw [hmo hd] at hm
    cases hm
  | silent hp _ hwe hh | answered hp _ hwe hh =>
    subst hp
    exact ⟨rfl, fun hd => (by cases hd),
      fun _ => ⟨_, _, _, decodeControl_encodeControl hwe, hh⟩⟩

end Rnet.Security.Ordered
