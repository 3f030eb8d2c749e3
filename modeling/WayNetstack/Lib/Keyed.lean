import Mathlib.Data.List.Nodup
import Mathlib.Algebra.BigOperators.Group.List.Basic

/-!
# Lists of records with a key

Records kept in a list and searched for by a key: the first record with the key is
found, and it is written back where it was found.
-/

namespace WayNetstack.Lib

variable {α β κ : Type} [DecidableEq κ] (key : α → κ)

/-- A record written back is found under its key, and nothing else changes. -/
theorem find?_set_findIdx (a : α) : ∀ (l : List α) (k : κ), (∃ b ∈ l, key b = key a) →
    (l.set (l.findIdx fun b => decide (key b = key a)) a).find? (fun b => decide (key b = k)) =
      if k = key a then some a else l.find? fun b => decide (key b = k)
  | [], k, h => by
    obtain ⟨b, hb, -⟩ := h
    cases hb
  | b :: l, k, h => by
    rw [List.findIdx_cons]
    by_cases hb : key b = key a
    · simp only [hb, decide_true, cond_true, List.set_cons_zero, List.find?_cons]
      by_cases hk : k = key a
      · simp [hk]
      · simp [hk, Ne.symm hk]
    · have hmem : ∃ b' ∈ l, key b' = key a := by
        obtain ⟨b', hb', he⟩ := h
        rcases List.mem_cons.mp hb' with rfl | hm
        · exact absurd he hb
        · exact ⟨b', hm, he⟩
      have ih := find?_set_findIdx a l k hmem
      simp only [hb, decide_false, cond_false, List.set_cons_succ, List.find?_cons]
      by_cases hk : key b = k
      · have : k ≠ key a := fun h => hb (hk.trans h)
        simp [hk, this]
      · simp only [hk, decide_false]
        exact ih

/-- A record written back keeps what it has in common with the one before. -/
theorem map_set_findIdx (f : α → β) (a : α) : ∀ l : List α,
    (∀ b, l.find? (fun b => decide (key b = key a)) = some b → f b = f a) →
      (l.set (l.findIdx fun b => decide (key b = key a)) a).map f = l.map f
  | [], _ => rfl
  | b :: l, h => by
    by_cases hb : key b = key a
    · have := h b (by simp [hb])
      simp [List.findIdx_cons, hb, this]
    · have ih := map_set_findIdx f a l fun b' hb' => h b' (by simp [hb, hb'])
      simp [List.findIdx_cons, hb, ih]

omit [DecidableEq κ] in
/-- A record written to a place keeps what it has in common with the one there. -/
theorem map_set_of_getElem? {f : α → β} {l : List α} {i : ℕ} {a b : α} (h : l[i]? = some b) (hf : f a = f b) :
    (l.set i a).map f = l.map f := by
  apply List.ext_getElem?
  intro j
  rw [List.getElem?_map, List.getElem?_map, List.getElem?_set]
  split
  · next hij =>
    subst hij
    rw [if_pos (List.getElem?_eq_some_iff.mp h).1, h, Option.map_some, Option.map_some, hf]
  · rfl

/-- A record written back changes a sum by what was and what is there. -/
theorem sum_set_findIdx {M : Type*} [AddCommMonoid M] (f : α → M) (a : α) {b : α} : ∀ {l : List α},
    l.find? (fun b => decide (key b = key a)) = some b →
      ((l.set (l.findIdx fun b => decide (key b = key a)) a).map f).sum + f b = (l.map f).sum + f a
  | [], h => by cases h
  | c :: l, h => by
    by_cases hc : key c = key a
    · simp only [List.find?_cons, hc, decide_true, Option.some.injEq] at h
      subst h
      simp only [List.findIdx_cons, hc, decide_true, cond_true, List.set_cons_zero, List.map_cons,
        List.sum_cons]
      rw [add_comm, add_comm (f a), add_assoc]
    · simp only [List.find?_cons, hc, decide_false] at h
      have ih := sum_set_findIdx f a h
      simp only [List.findIdx_cons, hc, decide_false, cond_false, List.set_cons_succ, List.map_cons,
        List.sum_cons, add_assoc, ih]

/-- With distinct keys, a search for a record's key finds the record. -/
theorem find?_of_getElem? : ∀ {l : List α} {i : ℕ} {a : α}, (l.map key).Nodup → l[i]? = some a →
    l.find? (fun b => decide (key b = key a)) = some a
  | [], _, _, _, h => by simp at h
  | b :: l, 0, a, _, h => by
    rw [List.getElem?_cons_zero, Option.some.injEq] at h
    simp [h]
  | b :: l, i + 1, a, hn, h => by
    rw [List.map_cons, List.nodup_cons] at hn
    rw [List.getElem?_cons_succ] at h
    have hne : key b ≠ key a := fun he => hn.1 (he ▸ List.mem_map_of_mem (List.mem_of_getElem? h))
    simp only [List.find?_cons, hne, decide_false]
    exact find?_of_getElem? hn.2 h

/-- With distinct keys, it finds the record where it is. -/
theorem findIdx_of_getElem? : ∀ {l : List α} {i : ℕ} {a : α}, (l.map key).Nodup → l[i]? = some a →
    (l.findIdx fun b => decide (key b = key a)) = i
  | [], _, _, _, h => by simp at h
  | b :: l, 0, a, _, h => by
    rw [List.getElem?_cons_zero, Option.some.injEq] at h
    simp [List.findIdx_cons, h]
  | b :: l, i + 1, a, hn, h => by
    rw [List.map_cons, List.nodup_cons] at hn
    rw [List.getElem?_cons_succ] at h
    have hne : key b ≠ key a := fun he => hn.1 (he ▸ List.mem_map_of_mem (List.mem_of_getElem? h))
    simp [List.findIdx_cons, hne, findIdx_of_getElem? hn.2 h]

/-- Of the members of a list only one contributes. -/
theorem flatMap_of_unique {f : α → List β} {a : α} : ∀ {l : List α}, l.Nodup → a ∈ l →
    (∀ b ∈ l, b ≠ a → f b = []) → l.flatMap f = f a
  | [], _, ha, _ => by cases ha
  | b :: l, hn, ha, h => by
    rw [List.nodup_cons] at hn
    rw [List.flatMap_cons]
    by_cases hb : b = a
    · subst hb
      have hrest : l.flatMap f = [] :=
        List.flatMap_eq_nil_iff.mpr fun c hc => h c (List.mem_cons_of_mem _ hc) fun hcb => hn.1 (hcb ▸ hc)
      rw [hrest, List.append_nil]
    · have hmem : a ∈ l := (List.mem_cons.mp ha).resolve_left fun hab => hb hab.symm
      rw [h b List.mem_cons_self hb, List.nil_append]
      exact flatMap_of_unique hn.2 hmem fun c hc => h c (List.mem_cons_of_mem _ hc)

end WayNetstack.Lib
