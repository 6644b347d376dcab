import Rnet.Protocol.Records

/-! # Security transition barriers

One session's controller: its role, the active business mode, the active epoch and at most one
server-led transition in flight. The server proposes (`beginSwitch`, `beginRekey`), and `handle`
consumes the authenticated controls of the other side. `handle` is written the way the source
mutates: it returns the controller as it stands afterwards together with the result, so that what
a failed call leaves behind is visible.

`handle_eq_ok` is the one place that opens the definition: a call succeeds exactly on the eight
barrier steps of `Barrier`. -/

namespace Rnet.Security.Controller

open Rnet.Core Protocol.Records

/-- Sides of a session. -/
inductive Role
  | server | client
  deriving DecidableEq

/-- What a transition does to the transport. -/
inductive Effect
  | none | setMode (mode : SecurityMode) | rekey | advanceEpoch
  deriving DecidableEq

/-- A response with the effects before and after it. -/
structure Transition where
  beforeResponse : Effect
  response : Option Control
  afterResponse : Effect
  deriving DecidableEq

/-- A response without effects. -/
def Transition.respond (control : Control) : Transition := ⟨.none, some control, .none⟩

/-- What a controller in a transition waits for. -/
inductive Pending
  | serverSwitchReady (epoch : ℕ) (mode : SecurityMode)
  | serverSwitchAck (epoch : ℕ) (mode : SecurityMode)
  | clientSwitchCommit (epoch : ℕ) (mode : SecurityMode)
  | serverRekeyReady (epoch : ℕ)
  | serverRekeyAck (epoch : ℕ)
  | clientRekeyCommit (epoch : ℕ)
  deriving DecidableEq

/-- Mode, epoch and in-flight transition of one session. -/
structure SecurityController where
  role : Role
  mode : SecurityMode
  epoch : ℕ
  pending : Option Pending
  deriving DecidableEq

/-- Refusal of a control or call out of turn. -/
def invalidState {α : Type} (message : String) : Result α := .error ⟨.invalidState, message⟩

namespace SecurityController

variable (c : SecurityController)

/-- A controller outside any transition. -/
def new (role : Role) (mode : SecurityMode) (epoch : ℕ) : SecurityController :=
  ⟨role, mode, epoch, none⟩

/-- A transition is in progress. -/
def isTransitioning : Bool := c.pending.isSome

/-- Only an idle server starts a transition. -/
def ensureServerIdle : Result Unit :=
  if c.role ≠ .server then invalidState "only the server may initiate security transitions"
  else if c.pending.isSome then invalidState "a security transition is already in progress"
  else if c.epoch = 0 then invalidState "established security epoch must be nonzero"
  else .ok ()

/-- Epoch after this one, unless they are used up. -/
def nextEpoch : Result ℕ :=
  if c.epoch + 1 ≤ u64Max then .ok (c.epoch + 1) else invalidState "security epoch exhausted"

/-- A transition leads to the next epoch. -/
def validateNextEpoch (epoch : ℕ) : Result Unit :=
  match c.nextEpoch with
  | .error e => .error e
  | .ok next =>
    if epoch ≠ next then invalidState "security transition skipped or reused an epoch" else .ok ()

/-- Proposes another mode. -/
def beginSwitch (mode : SecurityMode) : SecurityController × Result Control :=
  match c.ensureServerIdle with
  | .error e => (c, .error e)
  | .ok () =>
    if mode = c.mode then (c, invalidState "requested security mode is already active")
    else
      match c.nextEpoch with
      | .error e => (c, .error e)
      | .ok epoch =>
        ({ c with pending := some (.serverSwitchReady epoch mode) },
          .ok (.switch .switchPropose epoch mode))

/-- Proposes new keys. -/
def beginRekey : SecurityController × Result Control :=
  match c.ensureServerIdle with
  | .error e => (c, .error e)
  | .ok () =>
    match c.nextEpoch with
    | .error e => (c, .error e)
    | .ok epoch =>
      ({ c with pending := some (.serverRekeyReady epoch) },
        .ok (.barrier .rekeyPropose epoch))

/-- What every combination without its own arm returns. -/
def stale {α : Type} : Result α :=
  invalidState "unexpected or stale security transition barrier"

/-- `handle`: one authenticated control of the peer. -/
def handle (control : Control) : SecurityController × Result Transition :=
  match c.role, c.pending, control.kind with
  | .client, none, .switchPropose =>
    match control.mode with
    | none => (c, invalidState "switch proposal has no target mode")
    | some mode =>
      match c.validateNextEpoch control.epoch with
      | .error e => (c, .error e)
      | .ok () =>
        ({ c with pending := some (.clientSwitchCommit control.epoch mode) },
          .ok (.respond (.barrier .switchReady control.epoch)))
  | .server, some (.serverSwitchReady epoch mode), .switchReady =>
    if control.epoch = epoch then
      ({ c with pending := some (.serverSwitchAck epoch mode) },
        .ok (.respond (.barrier .switchCommit epoch)))
    else (c, stale)
  | .client, some (.clientSwitchCommit epoch mode), .switchCommit =>
    if control.epoch = epoch then
      ({ c with mode := mode, epoch := epoch, pending := none },
        .ok ⟨.setMode mode, some (.barrier .switchAck epoch), .none⟩)
    else (c, stale)
  | .server, some (.serverSwitchAck epoch mode), .switchAck =>
    if control.epoch = epoch then
      ({ c with mode := mode, epoch := epoch, pending := none },
        .ok ⟨.setMode mode, none, .none⟩)
    else (c, stale)
  | .client, none, .rekeyPropose =>
    match c.validateNextEpoch control.epoch with
    | .error e => (c, .error e)
    | .ok () =>
      ({ c with pending := some (.clientRekeyCommit control.epoch) },
        .ok (.respond (.barrier .rekeyReady control.epoch)))
  | .server, some (.serverRekeyReady epoch), .rekeyReady =>
    -- the commit leaves under the old key, so the rotation waits for the response
    if control.epoch = epoch then
      ({ c with pending := some (.serverRekeyAck epoch) },
        .ok ⟨.none, some (.barrier .rekeyCommit epoch), .rekey⟩)
    else (c, stale)
  | .client, some (.clientRekeyCommit epoch), .rekeyCommit =>
    if control.epoch = epoch then
      ({ c with epoch := epoch, pending := none },
        .ok ⟨.rekey, some (.barrier .rekeyAck epoch), .none⟩)
    else (c, stale)
  | .server, some (.serverRekeyAck epoch), .rekeyAck =>
    if control.epoch = epoch then
      ({ c with epoch := epoch, pending := none }, .ok ⟨.advanceEpoch, none, .none⟩)
    else (c, stale)
  | _, _, _ => (c, stale)

end SecurityController

open SecurityController

/-! ### What a successful call does -/

/-- The barrier steps: controller before, control, controller after, what the driver has to do. -/
inductive Barrier : SecurityController → Control → SecurityController → Transition → Prop
  | clientSwitchPropose {m e m'} (h : e + 1 ≤ u64Max) :
    Barrier ⟨.client, m, e, none⟩ ⟨.switchPropose, e + 1, some m'⟩
      ⟨.client, m, e, some (.clientSwitchCommit (e + 1) m')⟩
      (.respond (.barrier .switchReady (e + 1)))
  | serverSwitchReady {m e n m' o} :
    Barrier ⟨.server, m, e, some (.serverSwitchReady n m')⟩ ⟨.switchReady, n, o⟩
      ⟨.server, m, e, some (.serverSwitchAck n m')⟩ (.respond (.barrier .switchCommit n))
  | clientSwitchCommit {m e n m' o} :
    Barrier ⟨.client, m, e, some (.clientSwitchCommit n m')⟩ ⟨.switchCommit, n, o⟩
      ⟨.client, m', n, none⟩ ⟨.setMode m', some (.barrier .switchAck n), .none⟩
  | serverSwitchAck {m e n m' o} :
    Barrier ⟨.server, m, e, some (.serverSwitchAck n m')⟩ ⟨.switchAck, n, o⟩
      ⟨.server, m', n, none⟩ ⟨.setMode m', none, .none⟩
  | clientRekeyPropose {m e o} (h : e + 1 ≤ u64Max) :
    Barrier ⟨.client, m, e, none⟩ ⟨.rekeyPropose, e + 1, o⟩
      ⟨.client, m, e, some (.clientRekeyCommit (e + 1))⟩
      (.respond (.barrier .rekeyReady (e + 1)))
  | serverRekeyReady {m e n o} :
    Barrier ⟨.server, m, e, some (.serverRekeyReady n)⟩ ⟨.rekeyReady, n, o⟩
      ⟨.server, m, e, some (.serverRekeyAck n)⟩ ⟨.none, some (.barrier .rekeyCommit n), .rekey⟩
  | clientRekeyCommit {m e n o} :
    Barrier ⟨.client, m, e, some (.clientRekeyCommit n)⟩ ⟨.rekeyCommit, n, o⟩
      ⟨.client, m, n, none⟩ ⟨.rekey, some (.barrier .rekeyAck n), .none⟩
  | serverRekeyAck {m e n o} :
    Barrier ⟨.server, m, e, some (.serverRekeyAck n)⟩ ⟨.rekeyAck, n, o⟩
      ⟨.server, m, n, none⟩ ⟨.advanceEpoch, none, .none⟩

variable {c : SecurityController}

theorem validateNextEpoch_eq_ok {epoch : ℕ} :
    c.validateNextEpoch epoch = .ok () ↔ c.epoch + 1 ≤ u64Max ∧ epoch = c.epoch + 1 := by
  unfold validateNextEpoch nextEpoch invalidState
  split_ifs with h1 <;> simp [h1]

theorem stale_ne_ok : (stale : Result α) ≠ .ok x := nofun

variable {c' : SecurityController} {k : Control} {t : Transition}

theorem barrier_of_handle (h : c.handle k = (c', .ok t)) : Barrier c k c' t := by
  unfold handle at h
  obtain ⟨role, mode, epoch, pending⟩ := c
  obtain ⟨kind, target, targetMode⟩ := k
  -- one goal per arm; every arm but the two proposals is guarded by the epoch it waits for
  split at h <;> simp only at *
  case h_9 => exact absurd (congrArg Prod.snd h) stale_ne_ok
  all_goals rename_i hr hp hk; subst hr hp hk
  case h_1 =>
    split at h
    · exact absurd (congrArg Prod.snd h) nofun
    split at h
    · cases h
    rename_i hne
    obtain ⟨hl, rfl⟩ := validateNextEpoch_eq_ok.mp hne
    cases h; exact .clientSwitchPropose hl
  case h_5 =>
    split at h
    · cases h
    rename_i hne
    obtain ⟨hl, rfl⟩ := validateNextEpoch_eq_ok.mp hne
    cases h; exact .clientRekeyPropose hl
  all_goals
    split_ifs at h with hn
    · subst hn; cases h; constructor
    · exact absurd (congrArg Prod.snd h) stale_ne_ok

theorem handle_of_barrier (h : Barrier c k c' t) : c.handle k = (c', .ok t) := by
  cases h with
  | clientSwitchPropose hl
  | clientRekeyPropose hl => simp [handle, validateNextEpoch, nextEpoch, hl]
  | _ => simp [handle]

theorem handle_error (h : c.handle k = (c', .error e)) : c' = c := by
  unfold handle at h
  split at h
  case h_9 => exact (congrArg Prod.fst h).symm
  case h_1 =>
    split at h
    · exact (congrArg Prod.fst h).symm
    split at h
    · exact (congrArg Prod.fst h).symm
    · cases h
  case h_5 =>
    split at h
    · exact (congrArg Prod.fst h).symm
    · cases h
  all_goals
    split_ifs at h
    · cases h
    · exact (congrArg Prod.fst h).symm

/-! ### What starting a transition does -/

inductive Proposal : SecurityController → SecurityController → Control → Prop
  | switch {m e m'} (h0 : e ≠ 0) (h : e + 1 ≤ u64Max) (hm : m' ≠ m) :
    Proposal ⟨.server, m, e, none⟩ ⟨.server, m, e, some (.serverSwitchReady (e + 1) m')⟩
      (.switch .switchPropose (e + 1) m')
  | rekey {m e} (h0 : e ≠ 0) (h : e + 1 ≤ u64Max) :
    Proposal ⟨.server, m, e, none⟩ ⟨.server, m, e, some (.serverRekeyReady (e + 1))⟩
      (.barrier .rekeyPropose (e + 1))

theorem Proposal.epoch_eq (h : Proposal c c' k) : c'.epoch = c.epoch := by
  cases h <;> rfl

theorem ensureServerIdle_eq_ok :
    c.ensureServerIdle = .ok () ↔ c.role = .server ∧ c.pending = none ∧ c.epoch ≠ 0 := by
  unfold ensureServerIdle invalidState
  rw [← Option.not_isSome_iff_eq_none]
  split_ifs with h1 h2 h3 <;> simp_all

/-- A proposal is refused and leaves the controller alone, or starts a transition. -/
def Starts (c : SecurityController) (r : SecurityController × Result Control) : Prop :=
  (∃ e, r = (c, .error e)) ∨ ∃ c' k, r = (c', .ok k) ∧ Proposal c c' k

theorem starts_beginSwitch (c : SecurityController) (m : SecurityMode) :
    Starts c (c.beginSwitch m) := by
  unfold beginSwitch
  split
  · exact .inl ⟨_, rfl⟩
  rename_i hi
  obtain ⟨role, mode, epoch, pending⟩ := c
  obtain ⟨hr, hp, h0⟩ := ensureServerIdle_eq_ok.mp hi
  simp only at hr hp h0; subst hr hp
  split
  · exact .inl ⟨_, rfl⟩
  rename_i hm
  unfold nextEpoch
  by_cases hl : epoch + 1 ≤ u64Max
  · rw [if_pos hl]; exact .inr ⟨_, _, rfl, .switch h0 hl hm⟩
  · rw [if_neg hl]; exact .inl ⟨_, rfl⟩

theorem starts_beginRekey (c : SecurityController) : Starts c c.beginRekey := by
  unfold beginRekey
  split
  · exact .inl ⟨_, rfl⟩
  rename_i hi
  obtain ⟨role, mode, epoch, pending⟩ := c
  obtain ⟨hr, hp, h0⟩ := ensureServerIdle_eq_ok.mp hi
  simp only at hr hp h0; subst hr hp
  unfold nextEpoch
  by_cases hl : epoch + 1 ≤ u64Max
  · rw [if_pos hl]; exact .inr ⟨_, _, rfl, .rekey h0 hl⟩
  · rw [if_neg hl]; exact .inl ⟨_, rfl⟩

end Rnet.Security.Controller
