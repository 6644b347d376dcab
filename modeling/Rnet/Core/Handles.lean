import Mathlib.Data.List.Induction
import Mathlib.Data.List.Nodup
import Mathlib.Logic.Function.Basic
import Rnet.Core.Basic
import Rnet.Lib.GuardedRun

/-! # Generational handle tables

A table gives every stored value a handle: the slot it occupies and the generation of that slot. A
removal makes the slot vacant and moves it to its next generation, so that the handle no longer
resolves. The generations are finite and skip zero; a removed handle can resolve again only after its
slot has gone through all of them. -/

namespace Rnet.Core.Handles

open Lib.GuardedRun Lib.GuardedRun.Machine

/-- A slot of the table: the generation under which its value was stored. -/
structure Slot (α : Type) where
  generation : ℕ
  value : Option α

/-- The slots, and the vacant ones among them with the last freed first. -/
structure HandleTable (α : Type) where
  slots : List (Slot α)
  free : List ℕ

variable {α : Type}

/-- Generation in the upper half, index plus one in the lower. -/
def encodeHandle (index generation : ℕ) : ℕ := generation <<< 32 ||| (index + 1)

/-- Index and generation of a handle; neither half may be zero. -/
def decodeHandle (handle : ℕ) : Option (ℕ × ℕ) :=
  let encodedIndex := handle % 2 ^ 32
  let generation := handle >>> 32
  if encodedIndex = 0 ∨ generation = 0 then none else some (encodedIndex - 1, generation)

/-- `generation.wrapping_add(1).max(1)`. -/
def nextGeneration (generation : ℕ) : ℕ := max ((generation + 1) % 2 ^ 32) 1

namespace HandleTable

variable (t : HandleTable α)

/-- Stores `value` in the slot at `index`; `none` would be an index out of range. -/
def occupy (index : ℕ) (value : α) : Option (HandleTable α × ℕ) :=
  t.slots[index]?.map fun slot =>
    ({ t with slots := t.slots.set index { slot with value := some value } },
      encodeHandle index slot.generation)

/-- A free slot is used before a new one is appended. -/
def insert (value : α) : Option (HandleTable α × ℕ) :=
  match t.free with
  | index :: free => occupy { t with free := free } index value
  | [] => occupy { t with slots := t.slots ++ [⟨1, none⟩] } t.slots.length value

/-- Looks a handle up; an older generation finds nothing. -/
def get (handle : ℕ) : Option α :=
  match decodeHandle handle with
  | none => none
  | some (index, generation) =>
    t.slots[index]?.bind fun slot => if slot.generation = generation then slot.value else none

/-- `get_mut`, with what the caller does to the borrowed value. -/
def getMut (handle : ℕ) (f : α → α) : HandleTable α :=
  match decodeHandle handle with
  | none => t
  | some (index, generation) =>
    match t.slots[index]? with
    | none => t
    | some slot =>
      if slot.generation = generation then
        { t with slots := t.slots.set index { slot with value := slot.value.map f } }
      else t

/-- Takes a value out and frees its slot for the next generation. -/
def remove (handle : ℕ) : HandleTable α × Option α :=
  match decodeHandle handle with
  | none => (t, none)
  | some (index, generation) =>
    match t.slots[index]? with
    | none => (t, none)
    | some slot =>
      if slot.generation ≠ generation then (t, none)
      else match slot.value with
        | none => (t, none)
        | some value =>
          (⟨t.slots.set index ⟨nextGeneration slot.generation, none⟩, index :: t.free⟩, some value)

/-- `handles`: the live ones, in slot order. -/
def handles : List ℕ :=
  t.slots.zipIdx.filterMap fun (slot, index) =>
    slot.value.map fun _ => encodeHandle index slot.generation

end HandleTable

/-! ### Handles -/

theorem encodeHandle_eq (hi : i + 1 < 2 ^ 32) (g : ℕ) : encodeHandle i g = g * 2 ^ 32 + (i + 1) := by
  rw [encodeHandle, ← Nat.shiftLeft_add_eq_or_of_lt hi, Nat.shiftLeft_eq]

theorem decodeHandle_eq_some : decodeHandle handle = some (i, g) ↔
    i + 1 < 2 ^ 32 ∧ 0 < g ∧ handle = g * 2 ^ 32 + (i + 1) := by
  unfold decodeHandle
  simp only [Nat.shiftRight_eq_div_pow, Option.ite_none_left_eq_some, Option.some.injEq,
    Prod.mk.injEq, not_or]
  omega

/-! ### Edits -/

namespace HandleTable

variable {t t' : HandleTable α} {latest : ℕ → Option α}

/-- What a table keeps: its vacant slots are the free ones, no generation is zero, and a handle
resolves to what was last stored under it. -/
structure Sound (t : HandleTable α) (latest : ℕ → Option α) : Prop where
  vacant : ∀ i, i ∈ t.free ↔ ∃ g, t.slots[i]? = some ⟨g, none⟩
  nodup : t.free.Nodup
  slot : ∀ {i s}, t.slots[i]? = some s → i + 1 < 2 ^ 32 ∧ 0 < s.generation ∧ s.generation < 2 ^ 32
  latest : ∀ handle, t.get handle = latest handle

/-- One slot, of generation `g` if there was one, is exchanged: its value is stored or changed, or it
becomes vacant and its generation advances. -/
structure Edit (t t' : HandleTable α) (i g g' : ℕ) (v : Option α) : Prop where
  slots : ∀ j, t'.slots[j]? = if j = i then some ⟨g', v⟩ else t.slots[j]?
  before : ∀ s, t.slots[i]? = some s → s.generation = g
  index : i + 1 < 2 ^ 32
  generation : 0 < g ∧ g < 2 ^ 32
  next : g' = g ∨ g' = nextGeneration g ∧ v = none
  free : ∀ j, j ∈ t'.free ↔ if j = i then v = none else j ∈ t.free
  nodup : t'.free.Nodup

theorem nextGeneration_eq (hg : 0 < g ∧ g < 2 ^ 32) :
    nextGeneration g = 1 + g % (2 ^ 32 - 1) := by
  unfold nextGeneration
  omega

theorem Edit.bounds (h : Edit t t' i g g' v) : 0 < g' ∧ g' < 2 ^ 32 := by
  rcases h.next with rfl | ⟨rfl, -⟩
  · exact h.generation
  · rw [nextGeneration_eq h.generation]
    omega

theorem Edit.get (h : Edit t t' i g g' v) (handle : ℕ) :
    t'.get handle = if handle = encodeHandle i g then v else t.get handle := by
  have hi := h.index
  unfold HandleTable.get
  rw [encodeHandle_eq hi]
  cases hd : decodeHandle handle with
  | none =>
    rw [if_neg]
    rintro rfl
    rw [decodeHandle_eq_some.mpr ⟨hi, h.generation.1, rfl⟩] at hd
    cases hd
  | some p =>
    obtain ⟨j, k⟩ := p
    obtain ⟨hj, -, rfl⟩ := decodeHandle_eq_some.mp hd
    dsimp only
    rw [h.slots]
    by_cases hji : j = i
    · subst hji
      have hk : k * 2 ^ 32 + (j + 1) = g * 2 ^ 32 + (j + 1) ↔ k = g := by omega
      have hb := h.before
      have hx := h.next
      simp only [hk, if_pos, Option.bind_some]
      by_cases hkg : k = g
      · subst hkg
        rw [if_pos rfl]
        split_ifs with hgk
        · rfl
        · exact (hx.resolve_left hgk).2.symm
      · rw [if_neg hkg]
        have hn : (t.slots[j]?.bind fun s => if s.generation = k then s.value else none) = none := by
          refine Option.bind_eq_none_iff.mpr fun s hs => if_neg ?_
          rw [hb s hs]
          exact Ne.symm hkg
        rw [hn]
        rcases hx with rfl | ⟨-, rfl⟩
        · exact if_neg (Ne.symm hkg)
        · exact ite_self _
    · rw [if_neg hji, if_neg (by omega)]

/-- **One exchanged slot.** -/
theorem Sound.edit (h : Sound t latest) (he : Edit t t' i g g' v) :
    Sound t' (Function.update latest (encodeHandle i g) v) := by
  refine ⟨fun j => ?_, he.nodup, fun {j s} hj => ?_, fun handle => ?_⟩
  · rw [he.free, h.vacant, he.slots]
    split_ifs with hij
    · simp
    · rfl
  · rw [he.slots] at hj
    split_ifs at hj with hij
    · cases hj
      exact ⟨hij ▸ he.index, he.bounds⟩
    · exact h.slot hj
  · rw [he.get, Function.update_apply, h.latest]

theorem getElem?_concat (slots : List (Slot α)) (s : Slot α) (j : ℕ) :
    (slots ++ [s])[j]? = if j = slots.length then some s else slots[j]? := by
  grind

theorem getElem?_exchange {slots : List (Slot α)} (hs : slots[i]? = some s) (s' : Slot α) (j : ℕ) :
    (slots.set i s')[j]? = if j = i then some s' else slots[j]? := by
  grind

/-- **Insertion** finds a slot, and a handle that was not live. -/
theorem edit_insert (h : Sound t latest) (hl : t.slots.length < 2 ^ 32 - 1) (value : α) :
    ∃ t' i g, t.insert value = some (t', encodeHandle i g) ∧ t.get (encodeHandle i g) = none ∧
      Edit t t' i g g (some value) := by
  have hget : ∀ {i g}, i + 1 < 2 ^ 32 → 0 < g → (∀ s, t.slots[i]? = some s → s.value = none) →
      t.get (encodeHandle i g) = none := by
    intro i g hi hg hs
    unfold HandleTable.get
    rw [encodeHandle_eq hi, decodeHandle_eq_some.mpr ⟨hi, hg, rfl⟩]
    refine Option.bind_eq_none_iff.mpr fun s h => ?_
    rw [hs s h, ite_self]
  unfold insert
  cases hf : t.free with
  | nil =>
    have hn : t.slots[t.slots.length]? = none := List.getElem?_eq_none le_rfl
    refine ⟨⟨t.slots ++ [⟨1, some value⟩], []⟩, t.slots.length, 1, by simp [occupy],
      hget (by omega) one_pos (by simp), fun j => getElem?_concat .., by simp, by omega, by omega,
      .inl rfl, fun j => ?_, List.nodup_nil⟩
    simp [hf]
  | cons i list =>
    obtain ⟨g, hs⟩ := (h.vacant i).mp (by rw [hf]; exact List.mem_cons_self)
    obtain ⟨hi, hg⟩ := h.slot hs
    have hn := h.nodup
    rw [hf, List.nodup_cons] at hn
    refine ⟨⟨t.slots.set i ⟨g, some value⟩, list⟩, i, g, by simp [occupy, hs],
      hget hi hg.1 (by simp [hs]), getElem?_exchange hs _, by simp [hs], hi, hg, .inl rfl,
      fun j => ?_, hn.2⟩
    rw [hf, List.mem_cons]
    split_ifs with hji
    · simp [hji, hn.1]
    · simp [hji]

theorem resolve_cases (h : Sound t latest) (handle : ℕ) :
    (t.get handle = none ∧ (∀ f, t.getMut handle f = t) ∧ t.remove handle = (t, none)) ∨
      ∃ i g v, decodeHandle handle = some (i, g) ∧ t.slots[i]? = some ⟨g, some v⟩ ∧
        t.get handle = some v ∧ (∀ f, Edit t (t.getMut handle f) i g g (some (f v))) ∧
        Edit t (t.remove handle).1 i g (nextGeneration g) none := by
  unfold HandleTable.get getMut remove
  cases hd : decodeHandle handle with
  | none => exact .inl ⟨rfl, fun _ => rfl, rfl⟩
  | some p =>
    obtain ⟨i, g⟩ := p
    cases hs : t.slots[i]? with
    | none => exact .inl (by simp [hs])
    | some s =>
      obtain ⟨g', v⟩ := s
      by_cases hg : g' = g
      · subst hg
        cases v with
        | none =>
          obtain ⟨hl, he⟩ := List.getElem?_eq_some_iff.mp hs
          have hset : t.slots.set i ⟨g', none⟩ = t.slots := by rw [← he, List.set_getElem_self]
          exact .inl (by simp [hs, hset])
        | some v =>
          have hf : i ∉ t.free := by simp [h.vacant, hs]
          obtain ⟨hi, hb⟩ := h.slot hs
          refine .inr ⟨i, g', v, rfl, hs, by simp [hs], fun f => ?_, ?_⟩ <;>
            simp only [hs, if_true, ne_eq, not_true_eq_false, if_false]
          · refine ⟨getElem?_exchange hs _, by simp [hs], hi, hb, .inl rfl, fun j => ?_, h.nodup⟩
            split_ifs with hji
            · simp [hji, hf]
            · rfl
          · refine ⟨getElem?_exchange hs _, by simp [hs], hi, hb, .inr ⟨rfl, rfl⟩, fun j => ?_,
              List.nodup_cons.mpr ⟨hf, h.nodup⟩⟩
            split_ifs with hji <;> simp [hji]
      · exact .inl (by simp [hs, hg])

theorem Sound.handles (h : Sound t latest) : t.handles.Nodup ∧ 0 ∉ t.handles := by
  have hi : ∀ p ∈ t.slots.zipIdx, p.2 + 1 < 2 ^ 32 := fun p hp =>
    (h.slot (List.mem_zipIdx_iff_getElem?.mp hp)).1
  refine ⟨List.pairwise_filterMap.mpr ?_, fun hz => ?_⟩
  · have hn : t.slots.zipIdx.Pairwise fun p q => p.2 ≠ q.2 := by
      rw [← List.pairwise_map, List.zipIdx_map_snd]
      exact List.nodup_range'
    refine hn.imp_of_mem fun hp hq hne b hb b' hb' => ?_
    obtain ⟨-, -, rfl⟩ := Option.map_eq_some_iff.mp hb
    obtain ⟨-, -, rfl⟩ := Option.map_eq_some_iff.mp hb'
    have hp := hi _ hp
    have hq := hi _ hq
    rw [encodeHandle_eq hp, encodeHandle_eq hq]
    omega
  · obtain ⟨p, hp, hb⟩ := List.mem_filterMap.mp hz
    obtain ⟨-, -, he⟩ := Option.map_eq_some_iff.mp hb
    rw [encodeHandle_eq (hi p hp)] at he
    omega

end HandleTable

/-! ### Runs -/

open HandleTable

/-- Calls of the table. -/
inductive Op (α : Type)
  | insert (value : α)
  | get (handle : ℕ)
  | getMut (handle : ℕ) (f : α → α)
  | remove (handle : ℕ)

/-- A table, and what was last stored under each live handle. -/
structure World (α : Type) where
  table : HandleTable α
  latest : ℕ → Option α

def World.step (w : World α) : Op α → World α
  | .insert value =>
    match w.table.insert value with
    | none => w
    | some (t, handle) => ⟨t, Function.update w.latest handle (some value)⟩
  | .get _ => w
  | .getMut handle f =>
    ⟨w.table.getMut handle f, Function.update w.latest handle ((w.latest handle).map f)⟩
  | .remove handle => ⟨(w.table.remove handle).1, Function.update w.latest handle none⟩

def machine (α : Type) : Machine (World α) (Op α) where
  init w := w = ⟨⟨[], []⟩, fun _ => none⟩
  step := World.step

/-- There are fewer slots than indices. -/
def Bounded (w : World α) (_ : Op α) : Prop := w.table.slots.length < 2 ^ 32 - 1

variable {w : World α}

/-- **One operation** exchanges at most one slot. -/
theorem step_cases (h : Sound w.table w.latest) (hb : Bounded w op) : w.step op = w ∨
    ∃ i g g' v, Edit w.table (w.step op).table i g g' v ∧
      (w.step op).latest = Function.update w.latest (encodeHandle i g) v := by
  have hn : ∀ {handle}, w.table.get handle = none → Function.update w.latest handle none = w.latest :=
    fun hn => Function.update_eq_self_iff.mpr (by rw [← h.latest, hn])
  cases op with
  | insert value =>
    obtain ⟨t', i, g, he, -, hs⟩ := edit_insert h hb value
    simp only [World.step, he]
    exact .inr ⟨i, g, g, _, hs, rfl⟩
  | get handle => exact .inl rfl
  | getMut handle f =>
    simp only [World.step, ← h.latest]
    rcases resolve_cases h handle with ⟨hg, he, -⟩ | ⟨i, g, v, hd, hs, hg, he, -⟩ <;> rw [hg]
    · rw [he, Option.map_none, hn hg]
      exact .inl rfl
    · obtain ⟨hi, -, rfl⟩ := decodeHandle_eq_some.mp hd
      exact .inr ⟨i, g, g, _, he f, by rw [encodeHandle_eq hi]; rfl⟩
  | remove handle =>
    simp only [World.step]
    rcases resolve_cases h handle with ⟨hg, -, he⟩ | ⟨i, g, v, hd, hs, hg, -, he⟩
    · rw [he, hn hg]
      exact .inl rfl
    · obtain ⟨hi, -, rfl⟩ := decodeHandle_eq_some.mp hd
      exact .inr ⟨i, g, _, _, he, by rw [encodeHandle_eq hi]⟩

theorem sound_step (h : Sound w.table w.latest) (hb : Bounded w op) :
    Sound (w.step op).table (w.step op).latest := by
  rcases step_cases h hb with he | ⟨i, g, g', v, he, hl⟩
  · rw [he]
    exact h
  · rw [hl]
    exact h.edit he

theorem sound_reach (h : (machine α).Reach Bounded w) : Sound w.table w.latest :=
  h.invariant (I := fun w => Sound w.table w.latest)
    (fun _ hi => by
      subst hi
      refine ⟨by simp, List.nodup_nil, by simp, fun handle => ?_⟩
      unfold HandleTable.get
      cases decodeHandle handle <;> rfl)
    fun _ _ => sound_step

/-! ### Generations -/

def generationAt (w : World α) (i : ℕ) : Option ℕ := w.table.slots[i]?.map Slot.generation

theorem generationAt_step (hs : Sound w.table w.latest) (hb : Bounded w op)
    (h : generationAt w i = some g) :
    generationAt (w.step op) i = some g ∨ generationAt (w.step op) i = some (nextGeneration g) := by
  rcases step_cases hs hb with he | ⟨j, k, k', v, he, -⟩
  · rw [he]
    exact .inl h
  · unfold generationAt at h ⊢
    rw [he.slots]
    split_ifs with hij
    · obtain ⟨s, hsl, rfl⟩ := Option.map_eq_some_iff.mp h
      rw [he.before s (hij ▸ hsl)]
      exact he.next.imp (congrArg some) fun hx => congrArg some hx.1
    · exact .inl h

/-- **A run** takes a slot through its generations one after the other. -/
theorem generations_run : ∀ (ops : List (Op α)) {w : World α} {g : ℕ}, Sound w.table w.latest →
    (machine α).Runs Bounded w ops → generationAt w i = some g → 0 < g ∧ g < 2 ^ 32 →
    ∃ k, generationAt ((machine α).run w ops) i = some (1 + (g - 1 + k) % (2 ^ 32 - 1)) ∧
      ∀ j ≤ k, ∃ before, before <+: ops ∧
        generationAt ((machine α).run w before) i = some (1 + (g - 1 + j) % (2 ^ 32 - 1))
  | [], w, g, _, _, h, hg => by
    have h0 : generationAt w i = some (1 + (g - 1 + 0) % (2 ^ 32 - 1)) := by
      rw [h]
      congr 1
      omega
    refine ⟨0, h0, fun j hj => ⟨[], List.prefix_rfl, ?_⟩⟩
    rw [Nat.le_zero.mp hj]
    exact h0
  | op :: ops, w, g, hs, hr, h, hg => by
    rcases generationAt_step hs hr.1 h with h' | h'
    · obtain ⟨k, hk, hall⟩ := generations_run ops (sound_step hs hr.1) hr.2 h' hg
      refine ⟨k, hk, fun j hj => ?_⟩
      obtain ⟨before, hb, hj⟩ := hall j hj
      exact ⟨op :: before, List.cons_prefix_cons.mpr ⟨rfl, hb⟩, hj⟩
    · have hn := nextGeneration_eq hg
      have hx : ∀ j, (nextGeneration g - 1 + j) % (2 ^ 32 - 1) = (g - 1 + (j + 1)) % (2 ^ 32 - 1) := by
        omega
      obtain ⟨k, hk, hall⟩ := generations_run ops (sound_step hs hr.1) hr.2 h' (by omega)
      rw [hx] at hk
      refine ⟨k + 1, hk, fun j hj => ?_⟩
      cases j with
      | zero =>
        refine ⟨[], List.nil_prefix, h.trans ?_⟩
        congr 1
        omega
      | succ j =>
        obtain ⟨before, hb, hj⟩ := hall j (by omega)
        exact ⟨op :: before, List.cons_prefix_cons.mpr ⟨rfl, hb⟩, hx j ▸ hj⟩

/-- **Handle tables.** The free list holds each vacant slot once; live handles are distinct and not
zero, and a new one was not live; a handle resolves to what was last stored under it; an invalid one
changes nothing; and when a removed handle resolves again, its slot has been through every
generation since. -/
theorem handle_table_sound {w : World α} (h : (machine α).Reach Bounded w) :
    (w.table.free.Nodup ∧ ∀ i, i ∈ w.table.free ↔ ∃ g, w.table.slots[i]? = some ⟨g, none⟩) ∧
    (w.table.handles.Nodup ∧ 0 ∉ w.table.handles) ∧
    (∀ value, w.table.slots.length < 2 ^ 32 - 1 → ∃ t handle,
      w.table.insert value = some (t, handle) ∧ w.table.get handle = none) ∧
    (∀ handle, w.table.get handle = w.latest handle) ∧
    (∀ handle, w.table.get handle = none → (∀ f, w.table.getMut handle f = w.table) ∧
      w.table.remove handle = (w.table, none)) ∧
    ∀ handle value ops, w.table.get handle = some value →
      (machine α).Runs Bounded w (.remove handle :: ops) →
      ((machine α).run (w.step (.remove handle)) ops).table.get handle ≠ none →
      ∃ i g, decodeHandle handle = some (i, g) ∧ ∀ generation, 0 < generation → generation < 2 ^ 32 →
        ∃ before, before <+: ops ∧
          generationAt ((machine α).run (w.step (.remove handle)) before) i = some generation := by
  have hs := sound_reach h
  refine ⟨⟨hs.nodup, hs.vacant⟩, hs.handles, fun value hl => ?_, hs.latest, fun handle hn => ?_,
    fun handle value ops hv hr hg => ?_⟩
  · obtain ⟨t, i, g, hi, hn, -⟩ := edit_insert hs hl value
    exact ⟨t, _, hi, hn⟩
  · rcases resolve_cases hs handle with ⟨-, he⟩ | ⟨_, _, _, _, _, hv, -⟩
    · exact he
    · cases hn.symm.trans hv
  · rcases resolve_cases hs handle with ⟨hn, -⟩ | ⟨i, g, v, hd, -, -, -, he⟩
    · cases hn.symm.trans hv
    refine ⟨i, g, hd, fun x hx hx' => ?_⟩
    have hb := he.generation
    have hn := nextGeneration_eq hb
    have h₁ : generationAt (w.step (.remove handle)) i = some (nextGeneration g) := by
      rw [generationAt, World.step, he.slots, if_pos rfl]
      rfl
    have hs₁ := sound_step hs hr.1
    obtain ⟨k, hk, hall⟩ := generations_run ops hs₁ hr.2 h₁ (by omega)
    -- back at its old generation, the slot has been advanced a whole cycle
    have hs₂ := Runs.invariant (I := fun w : World α => Sound w.table w.latest)
      (fun _ _ h hb => sound_step h hb) ops hs₁ hr.2
    rcases resolve_cases hs₂ handle with ⟨hn, -⟩ | ⟨i', g', v', hd', hsl, -⟩
    · exact absurd hn hg
    cases hd.symm.trans hd'
    rw [generationAt, hsl] at hk
    have hk : g = _ := Option.some.inj hk
    obtain ⟨before, hbe, hge⟩ :=
      hall ((x + (2 ^ 32 - 1) - nextGeneration g) % (2 ^ 32 - 1)) (by omega)
    refine ⟨before, hbe, hge.trans ?_⟩
    congr 1
    omega

/-- One value is stored and removed, and another one takes its slot. -/
def reusing : List (Op ℕ) := [.insert 7, .remove (2 ^ 32 + 1), .insert 8]

def reused : World ℕ := (machine ℕ).run ⟨⟨[], []⟩, fun _ => none⟩ reusing

theorem reach_reused : (machine ℕ).Reach Bounded reused := by
  refine reach_run reusing (.start rfl) ⟨?_, ?_, ?_, trivial⟩ <;> unfold Bounded <;> decide

theorem handle_table_sound_reused : reused.table.get (2 ^ 33 + 1) = reused.latest (2 ^ 33 + 1) ∧
    reused.table.get (2 ^ 33 + 1) = some 8 ∧ reused.table.get (2 ^ 32 + 1) = none :=
  ⟨(handle_table_sound reach_reused).2.2.2.1 _, by decide, by decide⟩

end Rnet.Core.Handles
