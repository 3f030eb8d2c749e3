import Mathlib.Algebra.BigOperators.Group.List.Basic
import Mathlib.Data.List.GetD
import Mathlib.Data.Multiset.Bind

/-!
# Slabs

A slab keeps its items in numbered cells. A cell is free or holds one item; an
item is put into any free cell, and the number of its cell is its handle until
it is removed, after which the cell — and so the handle — may be used again.

`get?` is the slab's meaning, a partial function of the handle, and each
operation is characterized by what it does to it. `total` adds up a quantity
over the items held, in any commutative monoid. `Thinned` says that items may have
gone and nothing else has changed, so that a slab is known by what it was and by
which of its cells are still in use.
-/

namespace WayNetstack.Lib

/-- A slab: its cells in order, `none` for a free one. -/
structure Slab (α : Type) where
  /-- The cells. -/
  cells : List (Option α)
  deriving DecidableEq

namespace Slab

variable {α : Type}

/-- The slab with no cells. -/
def empty : Slab α := ⟨[]⟩

/-- The item in cell `h`. -/
def get? (s : Slab α) (h : ℕ) : Option α := s.cells.getD h none

/-- Replace the item in cell `h`. -/
def put (s : Slab α) (h : ℕ) (a : α) : Slab α := ⟨s.cells.set h (some a)⟩

/-- Free cell `h`. -/
def remove (s : Slab α) (h : ℕ) : Slab α := ⟨s.cells.set h none⟩

/-- Cell `h` can take a new item: it is a free cell, or the next cell to be made. -/
def Free (s : Slab α) (h : ℕ) : Prop := h ≤ s.cells.length ∧ s.get? h = none

/-- Put a new item into cell `h`, making the cell if it is the next one. -/
def insertAt (s : Slab α) (h : ℕ) (a : α) : Slab α :=
  if h < s.cells.length then ⟨s.cells.set h (some a)⟩ else ⟨s.cells ++ [some a]⟩

/-- The first free cell of a list of cells, or the next cell to be made. -/
def firstFreeOf : List (Option α) → ℕ
  | [] => 0
  | none :: _ => 0
  | some _ :: l => firstFreeOf l + 1

/-- The first free cell, or the next cell to be made. -/
def firstFree (s : Slab α) : ℕ := firstFreeOf s.cells

/-! ### What each operation does to `get?` -/

@[simp] theorem get?_empty (h : ℕ) : (empty : Slab α).get? h = none := rfl

theorem lt_length_of_get? {s : Slab α} {h : ℕ} {a : α} (hs : s.get? h = some a) :
    h < s.cells.length := by
  by_contra hlt
  unfold get? at hs
  rw [List.getD_eq_getElem?_getD, List.getElem?_eq_none (Nat.le_of_not_lt hlt)] at hs
  cases hs

theorem getD_set (l : List (Option α)) (h : ℕ) (x : Option α) (h' : ℕ) :
    (l.set h x).getD h' none = if h' = h ∧ h < l.length then x else l.getD h' none := by
  simp only [List.getD_eq_getElem?_getD, List.getElem?_set]
  by_cases heq : h = h'
  · subst heq
    by_cases hlt : h < l.length
    · simp [hlt]
    · simp [hlt]
  · rw [if_neg heq, if_neg (fun hc => heq hc.1.symm)]

theorem get?_put {s : Slab α} {h : ℕ} {a : α} (hs : s.get? h = some a) (b : α) (h' : ℕ) :
    (s.put h b).get? h' = if h' = h then some b else s.get? h' := by
  unfold get? put
  rw [getD_set]
  simp [lt_length_of_get? hs]

theorem get?_remove (s : Slab α) (h h' : ℕ) :
    (s.remove h).get? h' = if h' = h then none else s.get? h' := by
  unfold get? remove
  rw [getD_set]
  by_cases heq : h' = h
  · subst heq
    by_cases hlt : h' < s.cells.length
    · simp [hlt]
    · simp [hlt, List.getD_eq_getElem?_getD]
  · simp [heq]

theorem get?_insertAt {s : Slab α} {h : ℕ} (hf : s.Free h) (a : α) (h' : ℕ) :
    (s.insertAt h a).get? h' = if h' = h then some a else s.get? h' := by
  obtain ⟨hle, -⟩ := hf
  unfold insertAt
  by_cases hlt : h < s.cells.length
  · rw [if_pos hlt]
    unfold get?
    rw [getD_set]
    simp [hlt]
  · rw [if_neg hlt]
    obtain rfl : h = s.cells.length := Nat.le_antisymm hle (Nat.le_of_not_lt hlt)
    unfold get?
    rcases Nat.lt_trichotomy h' s.cells.length with h₁ | h₁ | h₁
    · rw [List.getD_append _ _ _ _ h₁, if_neg (Nat.ne_of_lt h₁)]
    · subst h₁
      simp
    · rw [if_neg (Nat.ne_of_gt h₁)]
      simp only [List.getD_eq_getElem?_getD]
      rw [List.getElem?_eq_none (by simp; omega), List.getElem?_eq_none (by omega)]

theorem firstFreeOf_spec : ∀ l : List (Option α),
    firstFreeOf l ≤ l.length ∧ l.getD (firstFreeOf l) none = none
  | [] => ⟨Nat.le_refl 0, rfl⟩
  | none :: _ => ⟨Nat.zero_le _, rfl⟩
  | some a :: l => by
    obtain ⟨hle, hnone⟩ := firstFreeOf_spec l
    refine ⟨Nat.succ_le_succ hle, ?_⟩
    rw [firstFreeOf, List.getD_cons_succ]
    exact hnone

theorem free_firstFree (s : Slab α) : s.Free s.firstFree := firstFreeOf_spec s.cells

/-! ### Slabs cell by cell -/

theorem get?_eq (s : Slab α) (h : ℕ) : s.get? h = (s.cells[h]?).join := by
  unfold get?
  rw [List.getD_eq_getElem?_getD]
  cases s.cells[h]? <;> rfl

theorem ext_get? {s t : Slab α} (hlen : s.cells.length = t.cells.length)
    (hget : ∀ h, s.get? h = t.get? h) : s = t := by
  obtain ⟨xs⟩ := s
  obtain ⟨ys⟩ := t
  refine congrArg Slab.mk (List.ext_getElem hlen fun h hx hy => ?_)
  have := hget h
  simpa [get?_eq, hx, hy] using this

/-- Change every item held. -/
def map {β : Type} (f : α → β) (s : Slab α) : Slab β := ⟨s.cells.map (Option.map f)⟩

@[simp] theorem get?_map {β : Type} (f : α → β) (s : Slab α) (h : ℕ) :
    (s.map f).get? h = (s.get? h).map f := by
  rw [get?_eq, get?_eq]
  simp only [map, List.getElem?_map]
  cases s.cells[h]? <;> rfl

@[simp] theorem length_map {β : Type} (f : α → β) (s : Slab α) :
    (s.map f).cells.length = s.cells.length := List.length_map _

@[simp] theorem length_put (s : Slab α) (h : ℕ) (a : α) : (s.put h a).cells.length = s.cells.length :=
  List.length_set

@[simp] theorem length_remove (s : Slab α) (h : ℕ) : (s.remove h).cells.length = s.cells.length :=
  List.length_set

/-- Some items have gone; the others are where they were. -/
structure Thinned (s s' : Slab α) : Prop where
  length : s'.cells.length = s.cells.length
  cell : ∀ h, s'.get? h = none ∨ s'.get? h = s.get? h

theorem Thinned.refl (s : Slab α) : s.Thinned s := ⟨rfl, fun _ => .inr rfl⟩

theorem Thinned.trans {s t u : Slab α} (h : s.Thinned t) (h' : t.Thinned u) : s.Thinned u := by
  refine ⟨h'.length.trans h.length, fun i => ?_⟩
  rcases h'.cell i with hu | hu
  · exact .inl hu
  · rw [hu]
    exact h.cell i

theorem Thinned.remove (s : Slab α) (h : ℕ) : s.Thinned (s.remove h) := by
  refine ⟨length_remove s h, fun i => ?_⟩
  rw [get?_remove]
  split
  · exact .inl rfl
  · exact .inr rfl

theorem Thinned.map {β : Type} {s s' : Slab α} (h : s.Thinned s') (f : α → β) :
    (s.map f).Thinned (s'.map f) := by
  refine ⟨by simp [h.length], fun i => ?_⟩
  rw [get?_map, get?_map]
  rcases h.cell i with hi | hi <;> simp [hi]

/-- An item that is there was there before. -/
theorem Thinned.get?_of_some {s s' : Slab α} (h : s.Thinned s') {i : ℕ} {a : α}
    (ha : s'.get? i = some a) : s.get? i = some a := by
  rcases h.cell i with hi | hi
  · rw [ha] at hi
    cases hi
  · rw [← hi, ha]

/-- What is left of a slab is known by the cells still in use. -/
theorem Thinned.unique {s t t' : Slab α} (h : s.Thinned t) (h' : s.Thinned t')
    (hused : ∀ i, (t.get? i).isSome ↔ (t'.get? i).isSome) : t = t' := by
  refine ext_get? (h.length.trans h'.length.symm) fun i => ?_
  cases ht : t.get? i with
  | none =>
    cases ht' : t'.get? i with
    | none => rfl
    | some a => simpa [ht, ht'] using hused i
  | some a =>
    obtain ⟨b, hb⟩ := Option.isSome_iff_exists.mp ((hused i).mp (by simp [ht]))
    rw [hb, ← h.get?_of_some ht, h'.get?_of_some hb]

/-! ### Totals over the items held -/

section Total

variable {M : Type*} [AddCommMonoid M]

/-- The total of `f` over the items held. -/
def total (f : α → M) (s : Slab α) : M := (s.cells.map fun o => o.elim 0 f).sum

@[simp] theorem total_empty (f : α → M) : (empty : Slab α).total f = 0 := rfl

/-- Changing one cell changes the total by what was and what is in it. -/
theorem total_set (f : α → M) (x : Option α) : ∀ (l : List (Option α)) (h : ℕ), h < l.length →
    ((l.set h x).map fun o => o.elim 0 f).sum + (l.getD h none).elim 0 f =
      (l.map fun o => o.elim 0 f).sum + x.elim 0 f
  | [], h, hlt => by simp at hlt
  | o :: l, 0, _ => by
    simp only [List.set_cons_zero, List.map_cons, List.sum_cons, List.getD_cons_zero]
    rw [add_comm, add_comm (x.elim 0 f), add_assoc]
  | o :: l, h + 1, hlt => by
    have ih := total_set f x l h (by simpa using hlt)
    simp only [List.set_cons_succ, List.map_cons, List.sum_cons, List.getD_cons_succ, add_assoc]
    rw [ih]

theorem total_put (f : α → M) {s : Slab α} {h : ℕ} {a : α} (hs : s.get? h = some a) (b : α) :
    (s.put h b).total f + f a = s.total f + f b := by
  have key := total_set f (some b) s.cells h (lt_length_of_get? hs)
  have ha : s.cells.getD h none = some a := hs
  rw [ha] at key
  exact key

theorem total_remove (f : α → M) {s : Slab α} {h : ℕ} {a : α} (hs : s.get? h = some a) :
    (s.remove h).total f + f a = s.total f := by
  have key := total_set f none s.cells h (lt_length_of_get? hs)
  have ha : s.cells.getD h none = some a := hs
  rw [ha, Option.elim_none, add_zero] at key
  exact key

theorem total_insertAt (f : α → M) {s : Slab α} {h : ℕ} (hf : s.Free h) (a : α) :
    (s.insertAt h a).total f = s.total f + f a := by
  unfold insertAt
  by_cases hlt : h < s.cells.length
  · rw [if_pos hlt]
    have key := total_set f (some a) s.cells h hlt
    have hnone : s.cells.getD h none = none := hf.2
    rw [hnone, Option.elim_none, add_zero] at key
    exact key
  · rw [if_neg hlt]
    unfold total
    rw [List.map_append, List.sum_append]
    simp

/-- What is in a total of multisets comes from an item held. -/
theorem exists_of_mem_total {β : Type*} {f : α → Multiset β} {s : Slab α} {x : β}
    (hx : x ∈ s.total f) : ∃ h a, s.get? h = some a ∧ x ∈ f a := by
  have hbind : x ∈ Multiset.bind (s.cells : Multiset (Option α)) fun o => o.elim 0 f := by
    rw [Multiset.bind, Multiset.map_coe, Multiset.join, Multiset.sum_coe]
    exact hx
  obtain ⟨o, ho, hxo⟩ := Multiset.mem_bind.mp hbind
  obtain ⟨h, hh⟩ := List.mem_iff_getElem?.mp (Multiset.mem_coe.mp ho)
  cases o with
  | none => simp at hxo
  | some a => exact ⟨h, a, by rw [get?, List.getD_eq_getElem?_getD, hh]; rfl, hxo⟩

end Total

end Slab

end WayNetstack.Lib
