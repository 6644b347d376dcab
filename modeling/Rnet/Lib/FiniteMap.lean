import Mathlib.Algebra.BigOperators.Group.List.Basic
import Mathlib.Algebra.GroupWithZero.Nat
import Mathlib.Data.List.AList

/-! # Finite tables

A finite map with decidable keys, as Mathlib's association lists without duplicate keys. The lemmas
compute a lookup after an update by comparing keys, which is the form case analyses want, and say how
an update changes the number of entries of a kind. -/

namespace Rnet.Lib.FiniteMap

variable {K V : Type} [DecidableEq K]

abbrev Table (K V : Type) := AList fun _ : K => V

def countP (t : Table K V) (p : K → V → Bool) : ℕ := (t.entries.filter fun e => p e.1 e.2).length

@[simp] theorem lookup_insert_ite (t : Table K V) (a b : K) (v : V) :
    (t.insert a v).lookup b = if b = a then some v else t.lookup b := by
  split_ifs with h
  · subst h; exact AList.lookup_insert t
  · exact AList.lookup_insert_ne h

@[simp] theorem lookup_erase_ite (t : Table K V) (a b : K) :
    (t.erase a).lookup b = if b = a then none else t.lookup b := by
  split_ifs with h
  · subst h; exact AList.lookup_erase b t
  · exact AList.lookup_erase_ne h

variable {t : Table K V}

theorem lookup_insert_none (h : t.lookup b = none) (hn : b ≠ a) (v : V) :
    (t.insert a v).lookup b = none := by
  rw [lookup_insert_ite, if_neg hn, h]

/-! ### Sizes -/

def size (t : Table K V) : ℕ := t.entries.length

def filter (t : Table K V) (p : K → V → Bool) : Table K V :=
  ⟨t.entries.filter fun e => p e.1 e.2, t.nodupKeys.sublist List.filter_sublist⟩

omit [DecidableEq K] in
@[simp] theorem size_filter (t : Table K V) (p : K → V → Bool) : size (filter t p) = countP t p := rfl

omit [DecidableEq K] in
theorem countP_le_size (t : Table K V) (p : K → V → Bool) : countP t p ≤ size t :=
  List.length_filter_le _ _

theorem lookup_eq_some_iff : t.lookup a = some v ↔ ⟨a, v⟩ ∈ t.entries := AList.mem_lookup_iff

theorem lookup_filter (t : Table K V) (p : K → V → Bool) (a : K) :
    (filter t p).lookup a = (t.lookup a).filter (p a) := by
  ext v
  rw [Option.filter_eq_some_iff, lookup_eq_some_iff, lookup_eq_some_iff]
  exact List.mem_filter

/-! ### Parts of a table -/

/-- Every entry of the first table is one of the second. -/
def Sub (t t' : Table K V) : Prop := ∀ a v, t.lookup a = some v → t'.lookup a = some v

namespace Sub

theorem refl (t : Table K V) : Sub t t := fun _ _ h => h

theorem trans (h : Sub t t') (h' : Sub t' t'') : Sub t t'' :=
  fun a v ha => h' a v (h a v ha)

theorem erase (t : Table K V) (a : K) : Sub (t.erase a) t := by
  intro b v h
  rw [lookup_erase_ite] at h
  split_ifs at h
  exact h

theorem filter (t : Table K V) (p : K → V → Bool) : Sub (FiniteMap.filter t p) t := by
  intro a v h
  rw [lookup_filter, Option.filter_eq_some_iff] at h
  exact h.1

theorem empty (t : Table K V) : Sub ∅ t := by
  intro a v h
  rw [AList.lookup_empty] at h
  cases h

theorem lookup_none (h : Sub t t') (ha : t'.lookup a = none) : t.lookup a = none := by
  rcases hv : t.lookup a with - | v
  · rfl
  · rw [h a v hv] at ha
    cases ha

end Sub

def Purged (gone : List K) (t t' : Table K V) : Prop :=
  ∀ a, t'.lookup a = if a ∈ gone then none else t.lookup a

namespace Purged

theorem refl (t : Table K V) : Purged [] t t := fun a => by rw [if_neg List.not_mem_nil]

variable {l : List K} {t t' : Table K V}

theorem trans (h : Purged l t t') (h' : Purged l' t' t'') : Purged (l ++ l') t t'' := by
  intro a
  rw [h' a, h a]
  by_cases ha : a ∈ l
  · rw [if_pos ha, if_pos (List.mem_append_left _ ha), ite_self]
  by_cases ha' : a ∈ l'
  · rw [if_pos ha', if_pos (List.mem_append_right _ ha')]
  · rw [if_neg ha', if_neg ha, if_neg fun h => (List.mem_append.mp h).elim ha ha']

theorem erase (t : Table K V) (a : K) : Purged [a] t (t.erase a) := by
  intro b
  simp only [lookup_erase_ite, List.mem_singleton]

theorem sub (h : Purged l t t') : Sub t' t := by
  intro a v ha
  rw [h a] at ha
  split_ifs at ha
  exact ha

theorem kept {l : List K} {t t' : Table K V} (h : Purged l t t') {a : K} (ha : a ∉ l) :
    t'.lookup a = t.lookup a := by rw [h a, if_neg ha]

end Purged

def mapValues (t : Table K V) (f : K → V → V) : Table K V :=
  ⟨t.entries.map fun e => ⟨e.1, f e.1 e.2⟩, by
    have hkeys : (t.entries.map fun e => (⟨e.1, f e.1 e.2⟩ : Sigma fun _ : K => V)).keys =
        t.entries.keys := by
      simp [List.keys, List.map_map, Function.comp_def]
    have hnodup := t.nodupKeys
    unfold List.NodupKeys at hnodup ⊢
    rwa [hkeys]⟩

theorem lookup_mapValues (t : Table K V) (f : K → V → V) (a : K) :
    (mapValues t f).lookup a = (t.lookup a).map (f a) := by
  ext v
  rw [lookup_eq_some_iff, Option.map_eq_some_iff]
  unfold mapValues
  rw [List.mem_map]
  constructor
  · rintro ⟨e, he, heq⟩
    cases heq
    exact ⟨e.2, lookup_eq_some_iff.mpr he, rfl⟩
  · rintro ⟨v', hv', rfl⟩
    exact ⟨⟨a, v'⟩, lookup_eq_some_iff.mp hv', rfl⟩

variable {p : K → V → Bool}

theorem size_le_countP_iff : size t ≤ countP t p ↔ ∀ a v, t.lookup a = some v → p a v = true := by
  have ha : size t ≤ countP t p ↔ ∀ e ∈ t.entries, p e.1 e.2 = true := by
    rw [← List.length_filter_eq_length_iff]
    exact ⟨fun h => Nat.le_antisymm (countP_le_size t p) h, fun h => Nat.le_of_eq h.symm⟩
  rw [ha]
  exact ⟨fun h a v hv => h ⟨a, v⟩ (lookup_eq_some_iff.mp hv),
    fun h e he => h e.1 e.2 (lookup_eq_some_iff.mpr he)⟩

theorem size_of_lookup_ne (a : K) (h : ∀ b, b ≠ a → t'.lookup b = t.lookup b) :
    size t' + (if (t.lookup a).isSome then 1 else 0) =
      size t + if (t'.lookup a).isSome then 1 else 0 := by
  have hs : ∀ s : Table K V, size s = s.keys.length := fun s => (List.length_map _).symm
  have hm : ∀ (s : Table K V) (b : K), b ∈ s.keys ↔ (s.lookup b).isSome := fun s b =>
    AList.mem_keys.symm.trans AList.lookup_isSome.symm
  have hp : (t'.keys.erase a).Perm (t.keys.erase a) := by
    rw [List.perm_ext_iff_of_nodup (t'.keys_nodup.erase a) (t.keys_nodup.erase a)]
    intro b
    rw [t'.keys_nodup.mem_erase_iff, t.keys_nodup.mem_erase_iff, hm, hm]
    by_cases hb : b = a
    · simp [hb]
    · rw [h b hb]
  have he : ∀ s : Table K V, size s =
      (s.keys.erase a).length + if (s.lookup a).isSome then 1 else 0 := by
    intro s
    rw [hs]
    split_ifs with ha
    · have hi := (hm s a).mpr ha
      have := List.length_pos_of_mem hi
      rw [List.length_erase_of_mem hi]
      omega
    · rw [List.erase_of_not_mem fun hi => ha ((hm s a).mp hi)]
      rfl
  rw [he t, he t', hp.length_eq]
  omega

theorem size_insert (t : Table K V) (a : K) (v : V) :
    size (t.insert a v) = if (t.lookup a).isSome then size t else size t + 1 := by
  have h := size_of_lookup_ne a fun b hb => (lookup_insert_ite t a b v).trans (if_neg hb)
  rw [lookup_insert_ite, if_pos rfl, Option.isSome_some, if_pos rfl] at h
  split_ifs at h ⊢ <;> omega

theorem countP_of_lookup_ne (a : K)
    (h : ∀ b, b ≠ a → (t'.lookup b).filter (p b) = (t.lookup b).filter (p b)) :
    countP t' p + (if (t.lookup a).any (p a) then 1 else 0) =
      countP t p + if (t'.lookup a).any (p a) then 1 else 0 := by
  have hs : ∀ b, b ≠ a → (filter t' p).lookup b = (filter t p).lookup b := by
    intro b hb
    rw [lookup_filter, lookup_filter]
    exact h b hb
  have hf := size_of_lookup_ne a hs
  rw [lookup_filter, lookup_filter] at hf
  simpa using hf

theorem countP_insert (t : Table K V) (p : K → V → Bool) (a : K) (v : V) :
    countP (t.insert a v) p + (if (t.lookup a).any (p a) then 1 else 0) =
      countP t p + if p a v then 1 else 0 := by
  have ho : ∀ b, b ≠ a → ((t.insert a v).lookup b).filter (p b) = (t.lookup b).filter (p b) := by
    intro b hb
    rw [lookup_insert_ite, if_neg hb]
  have h := countP_of_lookup_ne a ho
  rwa [lookup_insert_ite, if_pos rfl, Option.any_some] at h

omit [DecidableEq K] in
theorem countP_filter (t : Table K V) (p q : K → V → Bool) :
    countP (filter t q) p = countP t fun a v => p a v && q a v := by
  unfold countP filter
  rw [List.filter_filter]

omit [DecidableEq K] in
theorem countP_split (t : Table K V) (p q : K → V → Bool) :
    countP t p = countP t (fun a v => p a v && q a v) + countP t fun a v => p a v && !q a v := by
  rw [← countP_filter, ← countP_filter]
  unfold countP
  simp only [← List.countP_eq_length_filter]
  exact List.countP_eq_countP_filter_add t.entries (fun e => p e.1 e.2) fun e => q e.1 e.2

theorem countP_congr (h : ∀ a v, t.lookup a = some v → p a v = q a v) :
    countP t p = countP t q := by
  exact congrArg List.length
    (List.filter_congr fun e he => h e.1 e.2 (lookup_eq_some_iff.mpr he))

theorem countP_mono (h : ∀ a v, t.lookup a = some v → p a v = true → q a v = true) :
    countP t p ≤ countP t q := by
  unfold countP
  rw [← List.countP_eq_length_filter, ← List.countP_eq_length_filter]
  exact List.countP_mono_left fun e he => h e.1 e.2 (lookup_eq_some_iff.mpr he)

/-! ### Sums -/

def total (t : Table K V) (f : V → ℕ) : ℕ := (t.entries.map fun e => f e.2).sum

theorem sum_kerase (f : V → ℕ) (a : K) : ∀ l : List (Sigma fun _ : K => V),
    ((l.kerase a).map fun e => f e.2).sum + ((l.dlookup a).map f).getD 0 =
      (l.map fun e => f e.2).sum
  | [] => rfl
  | ⟨b, v⟩ :: l => by
    by_cases h : a = b
    · subst h
      have he : List.kerase a (⟨a, v⟩ :: l) = l := List.kerase_cons_eq rfl
      rw [he, List.dlookup_cons_eq, List.map_cons, List.sum_cons]
      exact Nat.add_comm _ _
    · have he : List.kerase a (⟨b, v⟩ :: l) = ⟨b, v⟩ :: l.kerase a := List.kerase_cons_ne h
      have hl : List.dlookup a (⟨b, v⟩ :: l) = l.dlookup a := List.dlookup_cons_ne _ _ h
      rw [he, hl, List.map_cons, List.map_cons, List.sum_cons, List.sum_cons,
        Nat.add_assoc, sum_kerase f a l]

theorem total_erase (t : Table K V) (f : V → ℕ) (a : K) :
    total (t.erase a) f + ((t.lookup a).map f).getD 0 = total t f := sum_kerase f a t.entries

theorem total_insert (t : Table K V) (f : V → ℕ) (a : K) (v : V) :
    total (t.insert a v) f + ((t.lookup a).map f).getD 0 = total t f + f v := by
  unfold total
  rw [AList.entries_insert, List.map_cons, List.sum_cons, Nat.add_assoc]
  have h := sum_kerase f a t.entries
  change f v + (((t.entries.kerase a).map fun e => f e.2).sum + ((t.entries.dlookup a).map f).getD 0)
    = _
  rw [h]
  exact Nat.add_comm _ _

omit [DecidableEq K] in
theorem total_mapValues (t : Table K V) (g : K → V → V) (f : V → ℕ) (h : ∀ a v, f (g a v) = f v) :
    total (mapValues t g) f = total t f := by
  unfold total mapValues
  rw [List.map_map]
  exact congrArg List.sum (List.map_congr_left fun e _ => h e.1 e.2)

theorem total_eq_zero (h : ∀ a v, t.lookup a = some v → f v = 0) : total t f = 0 := by
  refine List.sum_eq_zero fun n hn => ?_
  obtain ⟨e, he, rfl⟩ := List.mem_map.mp hn
  exact h e.1 e.2 (lookup_eq_some_iff.mpr he)

end Rnet.Lib.FiniteMap
