import Mathlib.Algebra.BigOperators.Group.List.Basic
import Mathlib.Algebra.GroupWithZero.Nat

/-! # Queues with a limit on number and weight

Entries of a queue have a weight, and both their number and their total weight are limited. Two
operations on the underlying list: `dropFirst p k` removes the first `k` entries with a property and
keeps the others in order, and `fitting` counts the entries of the longest prefix within a weight
limit. -/

namespace Rnet.Lib.WeightedQueue

variable {α : Type} (w : α → ℕ) (p : α → Bool)

def weight (l : List α) : ℕ := (l.map w).sum

@[simp] theorem weight_cons (a : α) (l : List α) : weight w (a :: l) = w a + weight w l := rfl

@[simp] theorem weight_append (l l' : List α) :
    weight w (l ++ l') = weight w l + weight w l' := by
  rw [weight, List.map_append, List.sum_append]
  rfl

theorem weight_eraseP (h : l.find? p = some a) : weight w (l.eraseP p) + w a = weight w l := by
  induction l with
  | nil => cases h
  | cons b l ih =>
    by_cases hb : p b = true
    · rw [List.find?_cons_of_pos hb] at h
      cases h
      rw [List.eraseP_cons_of_pos hb, weight_cons, Nat.add_comm]
    · rw [List.find?_cons_of_neg hb] at h
      rw [List.eraseP_cons_of_neg hb, weight_cons, weight_cons, Nat.add_assoc, ih h]

theorem length_eraseP {l : List α} {a : α} (h : l.find? p = some a) :
    (l.eraseP p).length + 1 = l.length := by
  have hm := List.mem_of_find?_eq_some h
  have hp := List.length_pos_of_mem hm
  rw [List.length_eraseP_of_mem hm (List.find?_some h)]
  omega

/-! ### Removing the first entries with a property -/

/-- The list without its first `k` entries that have the property. -/
def dropFirst : ℕ → List α → List α
  | 0, l => l
  | _ + 1, [] => []
  | k + 1, a :: l => if p a then dropFirst k l else a :: dropFirst (k + 1) l

@[simp] theorem dropFirst_zero (l : List α) : dropFirst p 0 l = l := by
  cases l <;> rfl

theorem dropFirst_succ (k : ℕ) (l : List α) :
    dropFirst p (k + 1) l = (dropFirst p k l).eraseP p := by
  induction l generalizing k with
  | nil => cases k <;> rfl
  | cons a l ih =>
    by_cases ha : p a = true
    · rw [dropFirst, if_pos ha]
      cases k with
      | zero => rw [dropFirst_zero, dropFirst_zero, List.eraseP_cons_of_pos ha]
      | succ k => rw [dropFirst, if_pos ha, ih]
    · rw [dropFirst, if_neg ha, ih]
      cases k with
      | zero => rw [dropFirst_zero, dropFirst_zero, List.eraseP_cons_of_neg ha]
      | succ k => rw [dropFirst, if_neg ha, List.eraseP_cons_of_neg ha]

theorem dropFirst_sublist (k : ℕ) (l : List α) : (dropFirst p k l).Sublist l := by
  induction k with
  | zero => rw [dropFirst_zero]
  | succ k ih =>
    rw [dropFirst_succ]
    exact List.eraseP_sublist.trans ih

theorem filter_not_dropFirst (k : ℕ) (l : List α) :
    (dropFirst p k l).filter (fun a => !p a) = l.filter fun a => !p a := by
  induction l generalizing k with
  | nil => cases k <;> rfl
  | cons a l ih =>
    cases k with
    | zero => rw [dropFirst_zero]
    | succ k => by_cases ha : p a = true <;> simp [dropFirst, ha, ih]

theorem filter_dropFirst (k : ℕ) (l : List α) :
    (dropFirst p k l).filter p = (l.filter p).drop k := by
  induction l generalizing k with
  | nil => cases k <;> rfl
  | cons a l ih =>
    cases k with
    | zero => rw [dropFirst_zero, List.drop_zero]
    | succ k => by_cases ha : p a = true <;> simp [dropFirst, ha, ih]

theorem map_dropFirst {β : Type} (f : β → α) (k : ℕ) (l : List β) :
    (dropFirst (fun b => p (f b)) k l).map f = dropFirst p k (l.map f) := by
  induction l generalizing k with
  | nil => cases k <;> rfl
  | cons b l ih =>
    cases k with
    | zero => simp
    | succ k => by_cases hb : p (f b) = true <;> simp [dropFirst, hb, ih]

theorem perm_dropFirst (k : ℕ) (l : List α) :
    (dropFirst p k l ++ (l.filter p).take k).Perm l := by
  induction l generalizing k with
  | nil => cases k <;> exact .refl _
  | cons a l ih =>
    cases k with
    | zero => simp
    | succ k =>
      by_cases ha : p a = true
      · rw [dropFirst, if_pos ha, List.filter_cons_of_pos ha, List.take_succ_cons]
        exact List.perm_middle.trans ((ih k).cons a)
      · rw [dropFirst, if_neg ha, List.filter_cons_of_neg ha]
        exact (ih (k + 1)).cons a

/-! ### The longest prefix that fits -/

/-- Number of entries of the longest prefix within a weight limit. -/
def fitting : ℕ → List α → ℕ
  | _, [] => 0
  | limit, a :: l => if limit < w a then 0 else fitting (limit - w a) l + 1

/-- A prefix within both limits, and no longer one is. -/
structure LongestFit (count limit : ℕ) (l r : List α) : Prop where
  initial : r <+: l
  length : r.length ≤ count
  weight : weight w r ≤ limit
  longest : ∀ r', r' <+: l → r'.length ≤ count → WeightedQueue.weight w r' ≤ limit →
    r'.length ≤ r.length

theorem fitting_le_length (limit : ℕ) (l : List α) : fitting w limit l ≤ l.length := by
  induction l generalizing limit with
  | nil => exact Nat.le_refl _
  | cons a l ih =>
    rw [fitting]
    split_ifs
    · exact Nat.zero_le _
    · exact Nat.succ_le_succ (ih _)

theorem weight_take_fitting (limit : ℕ) (l : List α) :
    weight w (l.take (fitting w limit l)) ≤ limit := by
  induction l generalizing limit with
  | nil => exact Nat.zero_le _
  | cons a l ih =>
    rw [fitting]
    split_ifs with hl
    · exact Nat.zero_le _
    have hr := ih (limit - w a)
    rw [List.take_succ_cons, weight_cons]
    omega

theorem le_fitting {limit n : ℕ} {l : List α} (hn : n ≤ l.length)
    (h : weight w (l.take n) ≤ limit) : n ≤ fitting w limit l := by
  induction l generalizing limit n with
  | nil => exact hn
  | cons a l ih =>
    cases n with
    | zero => exact Nat.zero_le _
    | succ n =>
      rw [List.take_succ_cons, weight_cons] at h
      have hr := @ih (limit - w a) n (Nat.le_of_succ_le_succ hn) (by omega)
      rw [fitting, if_neg (by omega)]
      exact Nat.succ_le_succ hr

/-- **Taking what fits** takes the longest prefix. -/
theorem longestFit_take (count limit : ℕ) (l : List α) :
    LongestFit w count limit l (l.take (fitting w limit (l.take count))) := by
  have hle := fitting_le_length w limit (l.take count)
  have hl := List.length_take_le count l
  have ht : l.take (fitting w limit (l.take count)) =
      (l.take count).take (fitting w limit (l.take count)) := by
    rw [List.take_take, Nat.min_eq_left (Nat.le_trans hle hl)]
  have hb := List.length_take_le (fitting w limit (l.take count)) l
  refine ⟨?_, by omega, ?_, fun r hr hc hwe => ?_⟩
  · exact List.take_prefix _ _
  · rw [ht]
    exact weight_take_fitting w limit _
  have hs : r.length ≤ l.length := hr.length_le
  have hr' : r = (l.take count).take r.length := by
    rw [List.take_take, Nat.min_eq_left hc]
    exact List.prefix_iff_eq_take.mp hr
  have hro : r.length ≤ (l.take count).length := by
    rw [List.length_take]
    omega
  have hf : r.length ≤ fitting w limit (l.take count) :=
    le_fitting w hro (by rw [← hr']; exact hwe)
  rw [List.length_take]
  omega

end Rnet.Lib.WeightedQueue
