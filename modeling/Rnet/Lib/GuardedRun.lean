import Mathlib.Logic.Basic
import Mathlib.Data.List.Basic

/-! # Machines and guarded runs

A machine has start states and one deterministic step per input; whatever the environment decides
(schedules, losses, clocks, failures) is part of the input. A guard restricts the inputs a run may
take in each state, so that "every run whose steps all meet a condition" is reachability under that
guard. Invariants are proved from a start lemma and a step lemma, once and for all by
`Reach.invariant`. -/

namespace Rnet.Lib.GuardedRun

structure Machine (σ α : Type) where
  init : σ → Prop
  step : σ → α → σ

variable {σ α : Type}

namespace Machine

/-- States reached by runs all of whose steps meet the guard. -/
inductive Reach (M : Machine σ α) (guard : σ → α → Prop) : σ → Prop
  | start {s : σ} (h : M.init s) : Reach M guard s
  | next {s : σ} {a : α} (h : Reach M guard s) (hg : guard s a) : Reach M guard (M.step s a)

variable {M : Machine σ α} {guard : σ → α → Prop}

/-- **Invariant rule.** What holds at the start and is kept by every guarded step holds in every
reached state. -/
theorem Reach.invariant {I : σ → Prop} (hs : ∀ s, M.init s → I s)
    (hst : ∀ s a, I s → guard s a → I (M.step s a)) {s : σ} (h : M.Reach guard s) : I s := by
  induction h with
  | start h => exact hs _ h
  | next _ hg ih => exact hst _ _ ih hg

theorem Reach.mono (hg : ∀ s a, guard s a → guard' s a) (h : M.Reach guard s) :
    M.Reach guard' s := by
  induction h with
  | start h => exact .start h
  | next _ h ih => exact .next ih (hg _ _ h)

/-- What holds in every reached state may be assumed of the state before each step. -/
theorem Reach.assume {P : σ → Prop} (hP : ∀ {s}, M.Reach guard s → P s) {s : σ}
    (h : M.Reach guard s) : M.Reach (fun s a => guard s a ∧ P s) s := by
  induction h with
  | start h => exact .start h
  | next h hg ih => exact .next ih ⟨hg, hP h⟩

def run (M : Machine σ α) (s : σ) (inputs : List α) : σ := inputs.foldl M.step s

/-- A list of inputs whose every step meets the guard. -/
def Runs (M : Machine σ α) (guard : σ → α → Prop) : σ → List α → Prop
  | _, [] => True
  | s, a :: l => guard s a ∧ Runs M guard (M.step s a) l

instance decidableRuns [∀ s a, Decidable (guard s a)] : ∀ (s : σ) (inputs : List α),
    Decidable (M.Runs guard s inputs)
  | _, [] => .isTrue trivial
  | s, a :: l => @instDecidableAnd _ _ inferInstance (decidableRuns (M.step s a) l)

theorem reach_run : ∀ (inputs : List α) {s : σ}, M.Reach guard s → M.Runs guard s inputs →
    M.Reach guard (M.run s inputs)
  | [], _, h, _ => h
  | _ :: l, _, h, hr => reach_run l (.next h hr.1) hr.2

theorem Runs.invariant {I : σ → Prop} (hs : ∀ s a, I s → guard s a → I (M.step s a)) :
    ∀ inputs {s}, I s → M.Runs guard s inputs → I (M.run s inputs)
  | [], _, h, _ => h
  | a :: l, s, h, hr => invariant hs l (hs s a h hr.1) hr.2

theorem Reach.run_free (hf : ∀ s a, guard s a) : ∀ (inputs : List α) {s : σ}, M.Reach guard s →
    M.Reach guard (M.run s inputs)
  | [], _, h => h
  | a :: l, s, h => run_free hf l (.next h (hf s a))

end Machine

end Rnet.Lib.GuardedRun
