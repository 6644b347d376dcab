import Mathlib.Data.List.Basic
import Mathlib.Order.Nat

/-! # Parsers fed in chunks

A parser looks at a buffer and takes an item off its front, waits for more, or fails. If it decides
each time on a part of the buffer that it has seen (`Incremental`), then a stream has one parse
(`Parses`), in whatever pieces it arrives. -/

namespace Rnet.Lib.ChunkedParser

variable {τ α ε : Type}

section Defs

variable (header : ℕ) (next : List τ → Except ε (Option (α × List τ)))

/-- Every buffer that starts with `p` starts with the item `a`. -/
def Item (p : List τ) (a : α) : Prop := ∀ x, next (p ++ x) = .ok (some (a, x))

/-- Every buffer that starts with `p` is malformed. -/
def Bad (p : List τ) (e : ε) : Prop := ∀ x, next (p ++ x) = .error e

/-- The parser decides on a prefix, and on a malformed one once it has `header` of it. -/
structure Incremental : Prop where
  empty : next [] = .ok none
  item : ∀ {b a rest}, next b = .ok (some (a, rest)) →
    ∃ p, p ≠ [] ∧ b = p ++ rest ∧ Item next p a
  bad : ∀ {b e}, next b = .error e → ∃ p x, b = p ++ x ∧ p.length = header ∧ Bad next p e

/-- **The parse of a stream**: its items, what follows them, and the error it ends with. -/
inductive Parses : List τ → List α → List τ → Option ε → Prop
  | waits {b} (h : next b = .ok none) : Parses b [] b none
  | fails {p e} (x) (hl : p.length = header) (h : Bad next p e) : Parses (p ++ x) [] (p ++ x) (some e)
  | item {p a b as r e} (hp : p ≠ []) (h : Item next p a) (hr : Parses b as r e) :
    Parses (p ++ b) (a :: as) r e

/-- Takes items off a buffer until the parser waits or fails. -/
def drain : ℕ → List τ → List α × List τ × Option ε
  | 0, b => ([], b, none)
  | n + 1, b =>
    match next b with
    | .error e => ([], b, some e)
    | .ok none => ([], b, none)
    | .ok (some (a, rest)) => let (as, r) := drain n rest; (a :: as, r)

end Defs

variable {header : ℕ} {next : List τ → Except ε (Option (α × List τ))}

theorem length_lt {p : List τ} (hp : p ≠ []) (b : List τ) : b.length < (p ++ b).length := by
  have := List.length_pos_of_ne_nil hp
  rw [List.length_append]
  omega

theorem drain_of_parses (hi : Incremental header next) (h : Parses header next b as r e) :
    ∀ n, b.length ≤ n → drain next n b = (as, r, e) := by
  induction h with
  | waits h =>
    intro n _
    cases n with
    | zero => rfl
    | succ n => rw [drain, h]
  | @fails p e x _ h =>
    intro n hn
    cases n with
    | zero =>
      have hx := h x
      rw [List.length_eq_zero_iff.mp (Nat.le_zero.mp hn), hi.empty] at hx
      cases hx
    | succ n => rw [drain, h x]
  | @item p a b as r e hp h _ ih =>
    intro n hn
    have hb := length_lt hp b
    obtain ⟨n, rfl⟩ := Nat.exists_eq_succ_of_ne_zero (n := n) (by omega)
    rw [drain, h b]
    dsimp only
    rw [ih n (by omega)]

theorem exists_parses (hi : Incremental header next) :
    ∀ n (b : List τ), b.length ≤ n → ∃ as r e, Parses header next b as r e
  | n, b, hn => by
    rcases h : next b with e | - | ⟨a, rest⟩
    · obtain ⟨p, x, rfl, hl, hb⟩ := hi.bad h
      exact ⟨_, _, _, .fails x hl hb⟩
    · exact ⟨_, _, _, .waits h⟩
    · obtain ⟨p, hp, rfl, ha⟩ := hi.item h
      have hb := length_lt hp rest
      obtain ⟨n, rfl⟩ := Nat.exists_eq_succ_of_ne_zero (n := n) (by omega)
      obtain ⟨as, r, e, hr⟩ := exists_parses hi n rest (by omega)
      exact ⟨_, _, _, .item hp ha hr⟩

theorem Parses.unique (hi : Incremental header next) (h : Parses header next b as r e)
    (h' : Parses header next b as' r' e') : as = as' ∧ r = r' ∧ e = e' := by
  have hd := drain_of_parses hi h b.length le_rfl
  rw [drain_of_parses hi h' b.length le_rfl] at hd
  simpa [eq_comm] using hd

/-! ### Reads and takes in any order -/

/-- A reader gets a chunk, or is asked for an item. -/
inductive Op (τ : Type)
  | read (chunk : List τ)
  | take

def arrived : List (Op τ) → List τ
  | [] => []
  | .read chunk :: ops => chunk ++ arrived ops
  | .take :: ops => arrived ops

def run (next : List τ → Except ε (Option (α × List τ))) :
    List τ → List (Op τ) → List α × List τ × Option ε
  | b, [] => ([], b, none)
  | b, .read chunk :: ops => run next (b ++ chunk) ops
  | b, .take :: ops =>
    match next b with
    | .error e => ([], b, some e)
    | .ok none => run next b ops
    | .ok (some (a, rest)) => let (as, r) := run next rest ops; (a :: as, r)

/-- **What was taken is the front of the parse**, and the rest of it is still to be taken; after an
error, all of it was taken. `y` has not arrived yet. -/
theorem run_of_parses (hi : Incremental header next) (y : List τ) : ∀ (ops : List (Op τ)) (b : List τ)
    {as r e}, Parses header next (b ++ (arrived ops ++ y)) as r e →
      (run next b ops).2.2 = none ∧ (∃ as', as = (run next b ops).1 ++ as' ∧
        Parses header next ((run next b ops).2.1 ++ y) as' r e) ∨
      ∃ err, (run next b ops).2.2 = some err ∧ e = some err ∧ (run next b ops).1 = as
  | [], _, as, _, _, h => .inl ⟨rfl, as, rfl, h⟩
  | .read chunk :: ops, b, as, r, e, h => by
    rw [arrived, List.append_assoc, ← List.append_assoc] at h
    exact run_of_parses hi y ops (b ++ chunk) h
  | .take :: ops, b, as, r, e, h => by
    rw [arrived] at h
    unfold run
    rcases hn : next b with err | - | ⟨a, rest⟩
    · obtain ⟨p, x, rfl, hl, hb⟩ := hi.bad hn
      rw [List.append_assoc] at h
      obtain ⟨rfl, -, rfl⟩ := h.unique hi (.fails _ hl hb)
      exact .inr ⟨err, rfl, rfl, rfl⟩
    · exact run_of_parses hi y ops b h
    · obtain ⟨p, hp, rfl, ha⟩ := hi.item hn
      obtain ⟨as', r', e', h'⟩ := exists_parses hi _ (rest ++ (arrived ops ++ y)) le_rfl
      rw [List.append_assoc] at h
      obtain ⟨rfl, rfl, rfl⟩ := h.unique hi (.item hp ha h')
      dsimp only
      rcases run_of_parses hi y ops rest h' with ⟨hn, as'', has, hr⟩ | ⟨err, he, rfl, has⟩
      · exact .inl ⟨hn, as'', by rw [has]; rfl, hr⟩
      · exact .inr ⟨err, he, rfl, by rw [has]⟩

end Rnet.Lib.ChunkedParser
