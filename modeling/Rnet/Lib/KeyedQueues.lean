import Rnet.Lib.FiniteMap

/-! # Round robin over keyed queues

One queue of values per key, and the keys with a value in the order of their turns. A key joins at the
back when its queue gets its first value; the key in front gives one value and goes to the back, or
leaves when that was its last. `Sound` says that the order lists exactly the keys with a value; `pop`
needs it, and answers `none` without it. `weigh` is the sum of a weight over all values. -/

namespace Rnet.Lib.KeyedQueues

open FiniteMap

variable {K V : Type} [DecidableEq K]

/-- Keys in the order of their turns, and the values of each. -/
structure RoundRobin (K V : Type) where
  order : List K
  queues : Table K (List V)

namespace RoundRobin

def empty (K V : Type) : RoundRobin K V := ⟨[], ∅⟩

def line (q : RoundRobin K V) (k : K) : List V := (q.queues.lookup k).getD []

def push (q : RoundRobin K V) (k : K) (v : V) : RoundRobin K V where
  order := if (q.line k).isEmpty then q.order ++ [k] else q.order
  queues := q.queues.insert k (q.line k ++ [v])

/-- Takes the first value of the key in front; `none` if the order lists a key without a value. -/
def pop (q : RoundRobin K V) : Option (RoundRobin K V × Option V) :=
  match q.order with
  | [] => some (q, none)
  | k :: order =>
    match q.queues.lookup k with
    | none => none
    | some [] => none
    | some [v] => some (⟨order, q.queues.erase k⟩, some v)
    | some (v :: rest) => some (⟨order ++ [k], q.queues.insert k rest⟩, some v)

/-- Drops a key with its queue. -/
def remove (q : RoundRobin K V) (k : K) : RoundRobin K V :=
  ⟨q.order.filter (· ≠ k), q.queues.erase k⟩

def weigh (f : V → ℕ) (q : RoundRobin K V) : ℕ := total q.queues fun l => (l.map f).sum

/-- The order lists exactly the keys with a value. -/
structure Sound (q : RoundRobin K V) : Prop where
  nodup : q.order.Nodup
  listed : ∀ k, k ∈ q.order ↔ (q.queues.lookup k).isSome
  filled : ∀ k, q.queues.lookup k ≠ some []

variable {q : RoundRobin K V} {k : K}

theorem sound_empty : Sound (empty K V) :=
  ⟨List.nodup_nil, fun k => by simp [empty], fun k => by simp [empty]⟩

theorem line_push (q : RoundRobin K V) (k : K) (v : V) (j : K) :
    (q.push k v).line j = if j = k then q.line k ++ [v] else q.line j := by
  unfold push line
  rw [lookup_insert_ite]
  split_ifs <;> rfl

theorem line_remove (q : RoundRobin K V) (k j : K) :
    (q.remove k).line j = if j = k then [] else q.line j := by
  unfold remove line
  rw [lookup_erase_ite]
  split_ifs <;> rfl

namespace Sound

theorem mem_order (h : q.Sound) : k ∈ q.order ↔ q.line k ≠ [] := by
  rw [h.listed, line]
  cases hl : q.queues.lookup k with
  | none => simp
  | some l =>
    have hne : l ≠ [] := fun he => h.filled k (by rw [hl, he])
    simp [hne]

theorem push (h : q.Sound) (k : K) (v : V) : (q.push k v).Sound := by
  have hnew : (q.line k).isEmpty = true → k ∉ q.order := fun he hk =>
    h.mem_order.mp hk (List.isEmpty_iff.mp he)
  refine ⟨?_, fun j => ?_, fun j => ?_⟩
  · unfold RoundRobin.push
    split_ifs with he
    · exact List.nodup_append_comm.mp (List.nodup_cons.mpr ⟨hnew he, h.nodup⟩)
    · exact h.nodup
  · have hold : ¬(q.line k).isEmpty = true → k ∈ q.order := fun he =>
      h.mem_order.mpr fun hn => he (List.isEmpty_iff.mpr hn)
    have hj := h.listed j
    unfold RoundRobin.push
    rw [lookup_insert_ite]
    by_cases hjk : j = k
    · subst hjk
      by_cases he : (q.line j).isEmpty = true
      · simp [he]
      · simp [he, hold he]
    · split_ifs <;> simp [hjk, hj]
  · unfold RoundRobin.push
    rw [lookup_insert_ite]
    split_ifs
    · simp
    · exact h.filled j

theorem remove (h : q.Sound) (k : K) : (q.remove k).Sound := by
  refine ⟨h.nodup.filter _, fun j => ?_, fun j => ?_⟩
  · have hj := h.listed j
    unfold RoundRobin.remove
    by_cases hjk : j = k <;> simp [hjk, hj]
  · unfold RoundRobin.remove
    rw [lookup_erase_ite]
    split_ifs
    · simp
    · exact h.filled j

/-- **Who is in front gives a value**, and goes to the back if that was not its last. -/
theorem pop (h : q.Sound) {order : List K} (ho : q.order = k :: order) :
    ∃ v rest q', q.line k = v :: rest ∧ q.pop = some (q', some v) ∧ q'.Sound ∧
      (∀ j, q'.line j = if j = k then rest else q.line j) ∧
      q'.order = if rest = [] then order else order ++ [k] := by
  have hsome : (q.queues.lookup k).isSome := (h.listed k).mp (by rw [ho]; exact List.mem_cons_self)
  obtain ⟨l, hl⟩ := Option.isSome_iff_exists.mp hsome
  have hnodup := h.nodup
  rw [ho, List.nodup_cons] at hnodup
  have hlisted : ∀ j, j ≠ k → (j ∈ order ↔ (q.queues.lookup j).isSome) := by
    intro j hj
    rw [← h.listed j, ho]
    simp [hj]
  match l, hl with
  | [], hl => exact absurd hl (h.filled k)
  | [v], hl =>
    refine ⟨v, [], ⟨order, q.queues.erase k⟩, ?_, ?_, ⟨hnodup.2, fun j => ?_, fun j => ?_⟩,
      fun j => ?_, rfl⟩
    · rw [line, hl]; rfl
    · rw [RoundRobin.pop, ho]; simp only [hl]
    · by_cases hj : j = k
      · simp [hj, hnodup.1]
      · simp [hj, hlisted j hj]
    · have := h.filled j
      by_cases hj : j = k <;> simp [hj, this]
    · by_cases hj : j = k <;> simp [line, hj]
  | v :: w :: rest, hl =>
    refine ⟨v, w :: rest, ⟨order ++ [k], q.queues.insert k (w :: rest)⟩, ?_, ?_,
      ⟨?_, fun j => ?_, fun j => ?_⟩, fun j => ?_, by simp⟩
    · rw [line, hl]; rfl
    · rw [RoundRobin.pop, ho]; simp only [hl]
    · exact List.nodup_append_comm.mp (List.nodup_cons.mpr hnodup)
    · by_cases hj : j = k
      · simp [hj]
      · simp [hj, hlisted j hj]
    · have := h.filled j
      by_cases hj : j = k <;> simp [hj, this]
    · by_cases hj : j = k <;> simp [line, hj]

end Sound

theorem pop_nil (h : q.order = []) : q.pop = some (q, none) := by
  rw [pop, h]

/-! ### Weights -/

variable (f : V → ℕ)

theorem weigh_line (q : RoundRobin K V) (k : K) :
    ((q.queues.lookup k).map fun l => (l.map f).sum).getD 0 = ((q.line k).map f).sum := by
  unfold line
  cases q.queues.lookup k <;> rfl

theorem weigh_push (q : RoundRobin K V) (k : K) (v : V) :
    weigh f (q.push k v) = weigh f q + f v := by
  have h := total_insert q.queues (fun l => (l.map f).sum) k (q.line k ++ [v])
  rw [weigh_line] at h
  simp only [List.map_append, List.sum_append, List.map_singleton, List.sum_singleton] at h
  unfold weigh push
  dsimp only
  omega

theorem weigh_remove (q : RoundRobin K V) (k : K) :
    weigh f (q.remove k) + ((q.line k).map f).sum = weigh f q := by
  rw [← weigh_line]
  exact total_erase ..

theorem weigh_pop (h : q.pop = some (q', some v)) : weigh f q' + f v = weigh f q := by
  unfold pop at h
  split at h
  · cases h
  rename_i k order ho
  have he := total_erase q.queues (fun l => (l.map f).sum) k
  split at h
  · cases h
  · cases h
  · rename_i v hl
    cases h
    rw [hl] at he
    simpa [weigh] using he
  · rename_i v rest _ hl
    cases h
    have hi := total_insert q.queues (fun l => (l.map f).sum) k rest
    rw [hl] at hi
    simp only [Option.map_some, Option.getD_some, List.map_cons, List.sum_cons] at hi
    unfold weigh
    dsimp only
    omega

theorem weigh_eq_line (h : ∀ j, j ≠ k → ∀ v ∈ q.line j, f v = 0) :
    weigh f q = ((q.line k).map f).sum := by
  have he := weigh_remove f q k
  have hz : weigh f (q.remove k) = 0 := by
    refine total_eq_zero fun j l hl => List.sum_eq_zero fun n hn => ?_
    obtain ⟨v, hv, rfl⟩ := List.mem_map.mp hn
    have hj : (q.remove k).line j = l := by rw [line, hl]; rfl
    rw [line_remove] at hj
    split_ifs at hj with hjk
    · rw [← hj] at hv
      cases hv
    · exact h j hjk v (by rw [hj]; exact hv)
  omega

end RoundRobin

end Rnet.Lib.KeyedQueues
