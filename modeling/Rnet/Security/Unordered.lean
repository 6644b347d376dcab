import Mathlib.Data.Set.Basic
import Rnet.Security.Ordered

/-! # Security barriers over an unordered channel

Server and client hold a controller and the keys of both directions, and everything they ever sent
may arrive at any time, in any order and more than once. So what is under way is a set that only
grows, of letters: a control, or business data with the mode it was sent in, and the epoch of either.

`Phase` lists the situations two honest ends can be in. In each of them the letters of the server's
epoch are known, and all others are older or belong to the epoch the client is ahead by. An end reads
only letters of its own epoch, so a stale control can never be mistaken for one of the transition in
progress. Answers may fail to leave, which is why a phase allows letters rather than asking for
them. -/

namespace Rnet.Security.Unordered

open Rnet.Core Protocol.Records Controller
open Ordered (Change)

/-! ### Letters and ends -/

/-- What was sent: its epoch, and a control or the mode business data was sent in. -/
inductive Letter
  | control (epoch : ℕ) (control : Control)
  | business (epoch : ℕ) (mode : SecurityMode)

def Letter.epoch : Letter → ℕ
  | control epoch _ => epoch
  | business epoch _ => epoch

/-- Controller and keys of one side. -/
structure End (K : Type) where
  controller : SecurityController
  outKey : K
  inKey : K

variable {K : Type}

/-- An effect of the controller: only a rekey changes the keys. -/
def End.apply (rekey : K → K) (effect : Effect) (x : End K) : End K :=
  if effect = .rekey then { x with outKey := rekey x.outKey, inKey := rekey x.inKey } else x

@[simp] theorem End.controller_apply (rekey : K → K) (effect : Effect) (x : End K) :
    (x.apply rekey effect).controller = x.controller := by
  unfold End.apply
  split_ifs <;> rfl

/-- Both sides and everything ever sent. -/
structure Exchange (K : Type) where
  server : End K
  client : End K
  toClient : Set Letter
  toServer : Set Letter

namespace Exchange

def side (x : Exchange K) : Role → End K
  | .server => x.server
  | .client => x.client

def incoming (x : Exchange K) : Role → Set Letter
  | .server => x.toServer
  | .client => x.toClient

def put (x : Exchange K) (role : Role) (y : End K) (out : List Letter) : Exchange K :=
  match role with
  | .server => { x with server := y, toClient := x.toClient ∪ {l | l ∈ out} }
  | .client => { x with client := y, toServer := x.toServer ∪ {l | l ∈ out} }

end Exchange

/-! ### Phases -/

/-- Letters of the past, of business in the current mode and epoch, and a few more. -/
def Known (m : SecurityMode) (e : ℕ) (more : List Letter) (letters : Set Letter) : Prop :=
  ∀ l ∈ letters, l.epoch < e ∨ l = .business e m ∨ l ∈ more

variable {m : SecurityMode} {e : ℕ} {more : List Letter} {letters : Set Letter}

theorem Known.mono (h : Known m e more letters) (hs : more ⊆ more') : Known m e more' letters :=
  fun l hl => (h l hl).imp_right fun h => h.imp_right fun h => hs h

theorem Known.union {out : List Letter} (h : Known m e more letters)
    (ho : ∀ l ∈ out, l = .business e m ∨ l ∈ more) :
    Known m e more (letters ∪ {l | l ∈ out}) := by
  rintro l (hl | hl)
  · exact h l hl
  · exact .inr (ho l hl)

theorem Known.past (h : Known m e more letters)
    (hm : ∀ l ∈ more, l.epoch < e + 1 ∨ l = .business (e + 1) m') :
    Known m' (e + 1) [] letters := by
  intro l hl
  rcases h l hl with h | rfl | h
  · exact .inl (by omega)
  · exact .inl (Nat.lt_succ_self e)
  · exact (hm l h).imp_right .inl

/-- What the server has done for a commit: nothing if the commit did not leave. -/
def commitEffect (q : Change) (sent : Bool) : Effect := if sent then q.serverEffect else .none

inductive Phase (rekey : K → K) : Exchange K → Prop
  /-- no transition -/
  | calm {m : SecurityMode} {e : ℕ} {a b : K} {sc cs : Set Letter} (he : e ≤ u64Max)
    (hsc : Known m e [] sc) (hcs : Known m e [] cs) :
    Phase rekey ⟨⟨⟨.server, m, e, none⟩, a, b⟩, ⟨⟨.client, m, e, none⟩, b, a⟩, sc, cs⟩
  /-- the server has proposed -/
  | proposed (q : Change) {m : SecurityMode} {e : ℕ} {a b : K} {sc cs : Set Letter}
    (he : e + 1 ≤ u64Max) (hsc : Known m e [.control e (q.propose (e + 1))] sc)
    (hcs : Known m e [] cs) :
    Phase rekey ⟨⟨⟨.server, m, e, some (q.awaitReady (e + 1))⟩, a, b⟩,
      ⟨⟨.client, m, e, none⟩, b, a⟩, sc, cs⟩
  /-- the client is ready -/
  | readied (q : Change) {m : SecurityMode} {e : ℕ} {a b : K} {sc cs : Set Letter}
    (he : e + 1 ≤ u64Max) (hsc : Known m e [.control e (q.propose (e + 1))] sc)
    (hcs : Known m e [.control e (q.ready (e + 1))] cs) :
    Phase rekey ⟨⟨⟨.server, m, e, some (q.awaitReady (e + 1))⟩, a, b⟩,
      ⟨⟨.client, m, e, some (q.awaitCommit (e + 1))⟩, b, a⟩, sc, cs⟩
  /-- the server has committed; only a commit that left changes its keys -/
  | committed (q : Change) (sent : Bool) {m : SecurityMode} {e : ℕ} {a b : K} {sc cs : Set Letter}
    (he : e + 1 ≤ u64Max)
    (hsc : Known m e (.control e (q.propose (e + 1)) ::
      if sent then [.control e (q.commit (e + 1))] else []) sc)
    (hcs : Known m e [.control e (q.ready (e + 1))] cs) :
    Phase rekey ⟨End.apply rekey (commitEffect q sent)
        ⟨⟨.server, m, e, some (q.awaitAck (e + 1))⟩, a, b⟩,
      ⟨⟨.client, m, e, some (q.awaitCommit (e + 1))⟩, b, a⟩, sc, cs⟩
  /-- the client has changed and is one epoch ahead -/
  | acked (q : Change) {m : SecurityMode} {e : ℕ} {a b : K} {sc cs : Set Letter}
    (he : e + 1 ≤ u64Max)
    (hsc : Known m e [.control e (q.propose (e + 1)), .control e (q.commit (e + 1))] sc)
    (hcs : Known m e [.control e (q.ready (e + 1)), .control e (q.ack (e + 1)),
      .business (e + 1) (q.mode m)] cs) :
    Phase rekey ⟨⟨⟨.server, m, e, some (q.awaitAck (e + 1))⟩, a, b⟩,
      ⟨⟨.client, q.mode m, e + 1, none⟩, b, a⟩, sc, cs⟩

/-! ### What a phase says -/

structure Agreed (s c : End K) : Prop where
  epoch_le : s.controller.epoch ≤ c.controller.epoch
  epoch_succ : c.controller.epoch ≤ s.controller.epoch + 1
  mode : s.controller.epoch = c.controller.epoch → s.controller.mode = c.controller.mode
  stable : s.controller.isTransitioning = false → s.controller.epoch = c.controller.epoch ∧
    s.controller.mode = c.controller.mode ∧ c.inKey = s.outKey ∧ s.inKey = c.outKey

variable {rekey : K → K} {x : Exchange K}

theorem Phase.agreed (h : Phase rekey x) : Agreed x.server x.client := by
  cases h with
  | calm => exact ⟨le_refl _, Nat.le_succ _, fun _ => rfl, fun _ => ⟨rfl, rfl, rfl, rfl⟩⟩
  | proposed | readied => exact ⟨le_refl _, Nat.le_succ _, fun _ => rfl, nofun⟩
  | committed q sent =>
    constructor <;> simp [SecurityController.isTransitioning]
  | acked =>
    exact ⟨Nat.le_succ _, le_refl _, fun h => absurd h (Nat.succ_ne_self _).symm, nofun⟩

theorem Phase.epoch_le (h : Phase rekey x) (role : Role) :
    (x.side role).controller.epoch ≤ u64Max := by
  cases h with
  | calm he => cases role <;> exact he
  | proposed q he | readied q he => cases role <;> exact (Nat.le_succ _).trans he
  | committed q sent he =>
    cases role <;> simp only [Exchange.side, End.controller_apply] <;> omega
  | acked q he =>
    cases role
    · exact (Nat.le_succ _).trans he
    · exact he

theorem Phase.mode_eq (h : Phase rekey x) {role : Role} {mode : SecurityMode}
    (hl : .business (x.side role).controller.epoch mode ∈ x.incoming role) :
    mode = (x.side role).controller.mode := by
  have hkn : ∀ {m e more letters}, Known m e more letters → .business e mode ∈ letters →
      (∀ m', .business e m' ∈ more → m' = m) → mode = m := by
    intro m e more letters hk hme hm
    rcases hk _ hme with h | h | h
    · exact absurd h (lt_irrefl e)
    · cases h; rfl
    · exact hm mode h
  cases h with
  | calm he hs hc | proposed q he hs hc
  | readied q he hs hc => cases role <;> exact hkn (by assumption) hl (by simp)
  | committed q sent he hs hc =>
    cases role with
    | server =>
      simp only [Exchange.side, End.controller_apply] at hl ⊢
      exact hkn hc hl (by simp)
    | client => exact hkn hs hl (by cases sent <;> simp)
  | acked q he hs hc =>
    cases role with
    | server => exact hkn hc hl (by simp)
    | client =>
      rcases hs _ hl with h | h | h
      · exact absurd h (by simp [Letter.epoch, Exchange.side])
      · simp [Exchange.side] at h
      · simp at h

/-! ### What the ends do -/

@[simp] theorem Exchange.put_side (x : Exchange K) (role : Role) :
    x.put role (x.side role) [] = x := by
  cases role <;> simp [Exchange.put, Exchange.side]

theorem Phase.sends (h : Phase rekey x) {role : Role}
    (hi : (x.side role).controller.pending = none) :
    Phase rekey (x.put role (x.side role)
      [.business (x.side role).controller.epoch (x.side role).controller.mode]) := by
  have ho : ∀ {m e more letters}, Known m e more letters →
      Known m e more (letters ∪ {l | l ∈ [Letter.business e m]}) :=
    fun hk => hk.union fun l hl => .inl (List.mem_singleton.mp hl)
  cases h with
  | calm he hs hc =>
    cases role
    · exact .calm he (ho hs) hc
    · exact .calm he hs (ho hc)
  | proposed q he hs hc =>
    cases role
    · cases hi
    · exact .proposed q he hs (ho hc)
  | readied => cases role <;> cases hi
  | committed q sent =>
    cases role
    · simp [Exchange.side] at hi
    · cases hi
  | acked q he hs hc =>
    cases role
    · cases hi
    refine .acked q he hs (hc.union fun l hl => .inr ?_)
    rw [List.mem_singleton.mp hl]
    simp [Exchange.side]

theorem Phase.proposes (h : Phase rekey x) {role : Role} {c : SecurityController} {k : Control}
    (hk : Proposal (x.side role).controller c k) :
    Phase rekey (x.put role { x.side role with controller := c }
      [.control (x.side role).controller.epoch k]) := by
  obtain ⟨q, m, e, hle, hc, rfl, rfl⟩ := Change.of_proposal hk
  cases role with
  | client => cases h <;> cases hc
  | server =>
  cases h with
  | calm he hs hcs =>
    cases hc
    refine .proposed q hle ((hs.mono (List.nil_subset _)).union fun l hl => .inr ?_) hcs
    exact hl
  | proposed | readied => cases hc
  | committed q sent => simp [Exchange.side] at hc
  | acked => cases hc

def handled (rekey : K → K) (x : Exchange K) (role : Role) (c : SecurityController) (t : Transition) :
    End K := End.apply rekey t.beforeResponse { x.side role with controller := c }

variable {k : Control}

theorem Known.control (h : Known m e more letters) (hl : .control e k ∈ letters) :
    .control e k ∈ more := by
  rcases h _ hl with h | h | h
  · exact absurd h (lt_irrefl e)
  · cases h
  · exact h

theorem Phase.client_receives (h : Phase rekey x)
    (hl : .control x.client.controller.epoch k ∈ x.toClient)
    (hk : x.client.controller.handle k = (c, .ok t)) :
    ∃ r, t.response = some r ∧ Phase rekey (x.put .client (handled rekey x .client c t) []) ∧
      Phase rekey (x.put .client
        (End.apply rekey t.afterResponse (handled rekey x .client c t))
        [.control x.client.controller.epoch r]) := by
  have hb := barrier_of_handle hk
  cases h with
  | calm he hs hc => exact absurd (hs.control hl) List.not_mem_nil
  | proposed q he hs hc =>
    have hm := hs.control hl
    rw [List.mem_singleton, Letter.control.injEq] at hm
    rw [hm.2] at hk
    cases hk.symm.trans (q.handle_propose he)
    refine ⟨_, rfl, .readied q he hs ?_, .readied q he hs ?_⟩
    · exact (hc.mono (List.nil_subset _)).union nofun
    · exact (hc.mono (List.nil_subset _)).union fun l hl => .inr hl
  | readied q he hs hc =>
    have hm := hs.control hl
    rw [List.mem_singleton, Letter.control.injEq] at hm
    rw [hm.2] at hb
    cases q <;> cases hb
  | @committed q sent m e a b sc cs he hs hc =>
    rcases List.mem_cons.mp (hs.control hl) with hm | hm
    · rw [Letter.control.injEq] at hm
      rw [hm.2] at hb
      cases q <;> cases hb
    · cases sent with
      | false => exact absurd hm List.not_mem_nil
      | true =>
        rw [if_pos rfl, List.mem_singleton, Letter.control.injEq] at hm
        rw [hm.2] at hk
        cases hk.symm.trans q.handle_commit
        -- a rekey has already changed the server's keys, and now changes the client's
        have ha : ∀ out : List Letter, (∀ l ∈ out, l = .control e (q.ack (e + 1))) →
            Known m e [.control e (q.ready (e + 1)), .control e (q.ack (e + 1)),
              .business (e + 1) (q.mode m)] (cs ∪ {l | l ∈ out}) := by
          intro out ho
          refine (hc.mono (by simp)).union fun l hl => .inr ?_
          rw [ho l hl]
          simp
        cases q with
        | switch m' =>
          exact ⟨_, rfl, .acked (.switch m') he hs (ha [] nofun),
            .acked (.switch m') he hs (ha _ fun l hl => List.mem_singleton.mp hl)⟩
        | rekey =>
          exact ⟨_, rfl, .acked .rekey he hs (ha [] nofun),
            .acked .rekey he hs (ha _ fun l hl => List.mem_singleton.mp hl)⟩
  | acked q he hs hc =>
    rcases hs _ hl with h | h | h
    · exact absurd h (by simp [Letter.epoch])
    · cases h
    · simp at h

theorem Phase.server_receives (h : Phase rekey x)
    (hl : .control x.server.controller.epoch k ∈ x.toServer)
    (hk : x.server.controller.handle k = (c, .ok t)) :
    (t.response = none ∧ Phase rekey (x.put .server
      (End.apply rekey t.afterResponse (handled rekey x .server c t)) [])) ∨
    ∃ r, t.response = some r ∧ Phase rekey (x.put .server (handled rekey x .server c t) []) ∧
      Phase rekey (x.put .server
        (End.apply rekey t.afterResponse (handled rekey x .server c t))
        [.control x.server.controller.epoch r]) := by
  have hb := barrier_of_handle hk
  cases h with
  | calm he hs hc | proposed q he hs hc => exact absurd (hc.control hl) List.not_mem_nil
  | readied q he hs hc =>
    have hm := hc.control hl
    rw [List.mem_singleton, Letter.control.injEq] at hm
    rw [hm.2] at hk
    cases hk.symm.trans q.handle_ready
    refine .inr ⟨_, rfl, .committed q false he ?_ hc, .committed q true he ?_ hc⟩
    · exact (hs.mono (by simp)).union nofun
    refine (hs.mono (by simp)).union fun l hl => .inr ?_
    rw [List.mem_singleton.mp hl]
    simp
  | committed q sent he hs hc =>
    simp only [End.controller_apply] at hl hb
    have hm := hc.control hl
    rw [List.mem_singleton, Letter.control.injEq] at hm
    rw [hm.2] at hb
    cases q <;> cases hb
  | @acked q m e a b sc cs he hs hc =>
    have hm := hc.control hl
    simp only [List.mem_cons, Letter.control.injEq, true_and, reduceCtorEq, List.not_mem_nil,
      or_false] at hm
    rcases hm with rfl | rfl
    · cases q <;> cases hb
    cases hk.symm.trans q.handle_ack
    refine .inl ⟨rfl, ?_⟩
    have hs' : Known (q.mode m) (e + 1) [] sc := hs.past (by simp [Letter.epoch])
    have hc' : Known (q.mode m) (e + 1) [] cs := hc.past (by simp [Letter.epoch])
    cases q with
    | switch m' | rekey => exact .calm he (hs'.union nofun) hc'

/-- **An end that handles a control of its epoch stays in a phase**, whether its answer leaves or
not. -/
theorem Phase.receives (h : Phase rekey x) {role : Role} {k : Control} {c : SecurityController}
    {t : Transition} (hl : .control (x.side role).controller.epoch k ∈ x.incoming role)
    (hk : (x.side role).controller.handle k = (c, .ok t)) :
    (t.response = none ∧ Phase rekey (x.put role
      (End.apply rekey t.afterResponse (handled rekey x role c t)) [])) ∨
    ∃ r, t.response = some r ∧ Phase rekey (x.put role (handled rekey x role c t) []) ∧
      Phase rekey (x.put role
        (End.apply rekey t.afterResponse (handled rekey x role c t))
        [.control (x.side role).controller.epoch r]) := by
  cases role with
  | server => exact h.server_receives hl hk
  | client => exact .inr (h.client_receives hl hk)

theorem Phase.wellFormed (h : Phase rekey x) {role : Role} {k : Control}
    (hl : .control (x.side role).controller.epoch k ∈ x.incoming role) : k.WellFormed := by
  have hf : ∀ {m e more letters} (q : Change), e + 1 ≤ u64Max → Known m e more letters →
      .control e k ∈ letters → (∀ l ∈ more, l = .control e (q.propose (e + 1)) ∨
        l = .control e (q.ready (e + 1)) ∨ l = .control e (q.commit (e + 1)) ∨
        l = .control e (q.ack (e + 1)) ∨ ∃ m', l = .business (e + 1) m') → k.WellFormed := by
    intro m e more letters q he hk hme hm
    obtain ⟨hp, hr, hc, ha⟩ := q.wellFormed he
    rcases hm _ (hk.control hme) with h | h | h | h | ⟨m', h⟩ <;> cases h <;> assumption
  cases h with
  | calm he hs hcs =>
    cases role
    · exact absurd (hcs.control hl) List.not_mem_nil
    · exact absurd (hs.control hl) List.not_mem_nil
  | proposed q he hs hcs =>
    cases role
    · exact absurd (hcs.control hl) List.not_mem_nil
    · exact hf q he hs hl (by simp)
  | readied q he hs hcs =>
    cases role
    · exact hf q he hcs hl (by simp)
    · exact hf q he hs hl (by simp)
  | committed q sent he hs hcs =>
    cases role with
    | server =>
      simp only [Exchange.side, End.controller_apply] at hl
      exact hf q he hcs hl (by simp)
    | client => exact hf q he hs hl (by cases sent <;> simp)
  | acked q he hs hcs =>
    cases role with
    | server => exact hf q he hcs hl (by simp)
    | client =>
      rcases hs _ hl with h | h | h
      · exact absurd h (by simp [Letter.epoch, Exchange.side])
      · cases h
      · simp [Exchange.side] at h

end Rnet.Security.Unordered
