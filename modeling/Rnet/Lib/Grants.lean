import Mathlib.Data.List.Basic

/-! # Sequences in which every use is granted

The events of a sequence may use a key, grant it or withdraw it. A sequence is lawful when every use
of a key comes after a grant of it and after no withdrawal. The state of the check is what was
granted and withdrawn before, so a sequence can be cut anywhere (`lawful_append`), an event can be
put in the middle and events can be left out. -/

namespace Rnet.Lib.Grants

/-- How events concern keys. -/
structure Roles (α κ : Type) where
  uses : α → Option κ
  grants : α → Option κ
  revokes : α → Option κ

variable {α κ : Type} (r : Roles α κ)

namespace Roles

def Used (l : List α) (k : κ) : Prop := ∃ e ∈ l, r.uses e = some k

def Granted (l : List α) (k : κ) : Prop := ∃ e ∈ l, r.grants e = some k

def Revoked (l : List α) (k : κ) : Prop := ∃ e ∈ l, r.revokes e = some k

/-- Every use stands behind a grant and behind no withdrawal; `held` was granted and `lost` was
withdrawn before. -/
def Lawful : (held lost : κ → Prop) → List α → Prop
  | _, _, [] => True
  | held, lost, e :: l => (∀ k, r.uses e = some k → held k ∧ ¬lost k) ∧
      Lawful (fun k => held k ∨ r.grants e = some k) (fun k => lost k ∨ r.revokes e = some k) l

variable {r} {held held' lost lost' : κ → Prop} {l l' : List α}

theorem Granted.append_left (h : r.Granted l k) (l' : List α) : r.Granted (l ++ l') k := by
  obtain ⟨e, he, hg⟩ := h
  exact ⟨e, List.mem_append_left _ he, hg⟩

theorem Lawful.mono (h : r.Lawful held lost l) (hh : ∀ k, r.Used l k → held k → held' k)
    (hlo : ∀ k, r.Used l k → lost' k → lost k) : r.Lawful held' lost' l := by
  induction l generalizing held held' lost lost' with
  | nil => trivial
  | cons e l ih =>
    have hl : ∀ {k}, r.Used l k → r.Used (e :: l) k := by
      rintro k ⟨u, hu, huse⟩
      exact ⟨u, List.mem_cons_of_mem _ hu, huse⟩
    constructor
    · intro k huse
      have hus : r.Used (e :: l) k := ⟨e, List.mem_cons_self, huse⟩
      exact ⟨hh k hus (h.1 k huse).1, fun hk => (h.1 k huse).2 (hlo k hus hk)⟩
    · exact ih h.2 (fun k hus => Or.imp_left (hh k (hl hus)))
        fun k hus => Or.imp_left (hlo k (hl hus))

theorem Lawful.of_held (h : ∀ e ∈ l, ∀ k, r.uses e = some k → held k ∧ ¬lost k)
    (hr : ∀ e ∈ l, r.revokes e = none) : r.Lawful held lost l := by
  induction l generalizing held lost with
  | nil => trivial
  | cons e l ih =>
    refine ⟨h e List.mem_cons_self, ih (fun u hu k hus => ?_) fun u hu =>
      hr u (List.mem_cons_of_mem _ hu)⟩
    obtain ⟨hh, hl⟩ := h u (List.mem_cons_of_mem _ hu) k hus
    rw [hr e List.mem_cons_self]
    exact ⟨.inl hh, fun hk => hk.elim hl nofun⟩

theorem lawful_append : r.Lawful held lost (l ++ l') ↔ r.Lawful held lost l ∧
    r.Lawful (fun k => held k ∨ r.Granted l k) (fun k => lost k ∨ r.Revoked l k) l' := by
  induction l generalizing held lost with
  | nil =>
    have hn : ∀ {P : κ → Prop} {f : α → Option κ},
        (fun k => P k ∨ ∃ e ∈ ([] : List α), f e = some k) = P := by
      intro P f
      funext k
      simp
    simp only [List.nil_append, Lawful, Granted, Revoked, hn, true_and]
  | cons e l ih =>
    have hc : ∀ {P : κ → Prop} {f : α → Option κ},
        (fun k => (P k ∨ f e = some k) ∨ ∃ u ∈ l, f u = some k) =
          fun k => P k ∨ ∃ u ∈ e :: l, f u = some k := by
      intro P f
      funext k
      simp only [List.mem_cons, exists_eq_or_imp, or_assoc]
    simp only [List.cons_append, Lawful, ih, Granted, Revoked, hc, and_assoc]

theorem Lawful.filter (h : r.Lawful held lost l)
    (hke : ∀ e ∈ l, ∀ k, r.grants e = some k → r.Used (l.filter p) k → p e = true) :
    r.Lawful held lost (l.filter p) := by
  induction l generalizing held lost with
  | nil => trivial
  | cons e l ih =>
    have hr : r.Lawful (fun k => held k ∨ r.grants e = some k)
        (fun k => lost k ∨ r.revokes e = some k) (l.filter p) := by
      refine ih h.2 fun e' he' k hg hus => hke e' (List.mem_cons_of_mem _ he') k hg ?_
      obtain ⟨u, hu, huse⟩ := hus
      obtain ⟨hi, hp⟩ := List.mem_filter.mp hu
      exact ⟨u, List.mem_filter.mpr ⟨List.mem_cons_of_mem _ hi, hp⟩, huse⟩
    by_cases hp : p e = true
    · rw [List.filter_cons_of_pos hp]
      exact ⟨h.1, hr⟩
    rw [List.filter_cons_of_neg hp] at hke ⊢
    refine hr.mono (fun k hus hk => hk.resolve_right fun hg => ?_) fun _ _ => .inl
    exact hp (hke e List.mem_cons_self k hg hus)

/-- An event is put in the middle: a grant in front of the uses it is for, a withdrawal behind them.
-/
theorem Lawful.insert (h : r.Lawful (fun k => held k ∨ r.grants e = some k) lost (l ++ l'))
    (hus : ∀ k, r.uses e = some k → (held k ∨ r.Granted l k) ∧ ¬(lost k ∨ r.Revoked l k))
    (hgra : ∀ k, r.grants e = some k → ¬r.Used l k)
    (hre : ∀ k, r.revokes e = some k → ¬r.Used l' k) : r.Lawful held lost (l ++ e :: l') := by
  obtain ⟨hf, hb⟩ := lawful_append.mp h
  refine lawful_append.mpr ⟨?_, hus, ?_⟩
  · exact hf.mono (fun k hu hk => hk.resolve_right fun hg => hgra k hg hu) fun _ _ => id
  refine hb.mono (fun k _ hk => ?_) fun k hu hk => ?_
  · rcases hk with (hh | hg) | hgr
    · exact .inl (.inl hh)
    · exact .inr hg
    · exact .inl (.inr hgr)
  · exact hk.resolve_right fun hr => hre k hr hu

/-- **Every use comes after a grant and after no withdrawal.** -/
theorem Lawful.spec (h : r.Lawful (fun _ => False) (fun _ => False) (pre ++ e :: post))
    (hu : r.uses e = some k) : r.Granted pre k ∧ ¬r.Revoked pre k := by
  obtain ⟨hg, hr⟩ := (lawful_append.mp h).2.1 k hu
  exact ⟨hg.resolve_left id, fun hk => hr (.inr hk)⟩

end Roles

end Rnet.Lib.Grants
