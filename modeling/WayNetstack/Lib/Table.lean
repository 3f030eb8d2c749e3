import Mathlib.Data.List.AList

/-!
# Tables

A table is a finite map kept as a list of entries with distinct keys (Mathlib's
`AList`). The order of the entries is the order in which a loop over the table
visits them; nothing else depends on it. Besides Mathlib's lemmas on `lookup`,
`insert` and `erase`, a proof about a table that changes needs to know what
`replace` does, how many entries there are, and how many of them have a key with
some property: `len` and `countKeys`.
-/

namespace WayNetstack.Lib

/-- A finite map from `K` to `V`, with an order of its entries. -/
abbrev Table (K V : Type) := AList fun _ : K => V

namespace Table

variable {K V : Type} [DecidableEq K]

theorem lookup_eq_some {t : Table K V} {k : K} {v : V} :
    t.lookup k = some v ↔ ⟨k, v⟩ ∈ t.entries :=
  AList.mem_lookup_iff

theorem mem_of_lookup {t : Table K V} {k : K} {v : V} (h : t.lookup k = some v) : k ∈ t := by
  rw [← AList.lookup_isSome, h]
  rfl

theorem notMem_of_lookup {t : Table K V} {k : K} (h : t.lookup k = none) : k ∉ t :=
  AList.lookup_eq_none.mp h

theorem exists_lookup {t : Table K V} {k : K} (h : k ∈ t) : ∃ v, t.lookup k = some v :=
  Option.isSome_iff_exists.mp (AList.lookup_isSome.mpr h)

theorem lookup_insert' (t : Table K V) (k : K) (v : V) (k' : K) :
    (t.insert k v).lookup k' = if k' = k then some v else t.lookup k' := by
  by_cases h : k' = k
  · subst h
    rw [if_pos rfl, AList.lookup_insert]
  · rw [if_neg h, AList.lookup_insert_ne h]

/-- What is found after an insertion. -/
theorem lookup_of_insert {t : Table K V} {k k' : K} {v v' : V} (h : (t.insert k v).lookup k' = some v') :
    k' = k ∧ v' = v ∨ k' ≠ k ∧ t.lookup k' = some v' := by
  rw [lookup_insert'] at h
  split at h
  · next hk => exact .inl ⟨hk, (Option.some.inj h).symm⟩
  · next hk => exact .inr ⟨hk, h⟩

/-- A new key leaves the entries there. -/
theorem lookup_insert_of_new {t : Table K V} {k k' : K} {v v' : V} (new : t.lookup k = none)
    (h : t.lookup k' = some v') : (t.insert k v).lookup k' = some v' := by
  have hne : k' ≠ k := by
    rintro rfl
    rw [new] at h
    cases h
  rw [lookup_insert', if_neg hne, h]

theorem lookup_erase' (t : Table K V) (k k' : K) :
    (t.erase k).lookup k' = if k' = k then none else t.lookup k' := by
  by_cases h : k' = k
  · subst h
    rw [if_pos rfl, AList.lookup_erase]
  · rw [if_neg h, AList.lookup_erase_ne h]

/-- What is found after a removal was there. -/
theorem lookup_of_erase {t : Table K V} {k k' : K} {v : V} (h : (t.erase k).lookup k' = some v) :
    k' ≠ k ∧ t.lookup k' = some v := by
  rw [lookup_erase'] at h
  split at h
  · cases h
  · next hk => exact ⟨hk, h⟩

/-! ### Replacing a value -/

theorem dlookup_kreplace (k : K) (v : V) (k' : K) : ∀ l : List (Σ _ : K, V),
    (l.kreplace k v).dlookup k' = if k' = k then (l.dlookup k).map fun _ => v else l.dlookup k'
  | [] => by simp [List.kreplace]
  | ⟨a, b⟩ :: l => by
    have ih := dlookup_kreplace k v k' l
    by_cases ha : k = a
    · subst ha
      have hstep : List.kreplace k v (⟨k, b⟩ :: l) = ⟨k, v⟩ :: l :=
        List.lookmap_cons_some _ l (by simp)
      rw [hstep]
      by_cases hk : k' = k
      · subst hk
        simp
      · rw [if_neg hk, List.dlookup_cons_ne (β := fun _ => V) l ⟨k, v⟩ hk,
          List.dlookup_cons_ne (β := fun _ => V) l ⟨k, b⟩ hk]
    · have hstep : List.kreplace k v (⟨a, b⟩ :: l) = ⟨a, b⟩ :: List.kreplace k v l :=
        List.lookmap_cons_none _ l (by simp [ha])
      rw [hstep]
      by_cases hk' : k' = a
      · subst hk'
        rw [if_neg (Ne.symm ha), List.dlookup_cons_eq, List.dlookup_cons_eq]
      · rw [List.dlookup_cons_ne (β := fun _ => V) _ ⟨a, b⟩ hk', ih,
          List.dlookup_cons_ne (β := fun _ => V) l ⟨a, b⟩ ha,
          List.dlookup_cons_ne (β := fun _ => V) l ⟨a, b⟩ hk']

/-- `replace` changes the value of a key the table has, and nothing else. -/
theorem lookup_replace {t : Table K V} {k : K} {w : V} (h : t.lookup k = some w) (v : V) (k' : K) :
    (t.replace k v).lookup k' = if k' = k then some v else t.lookup k' := by
  have key := dlookup_kreplace k v k' t.entries
  have hw : t.entries.dlookup k = some w := h
  rw [hw] at key
  exact key

/-- What is found after a replacement. -/
theorem lookup_of_replace {t : Table K V} {k k' : K} {v v' w : V} (h : t.lookup k = some w)
    (h' : (t.replace k v).lookup k' = some v') : k' = k ∧ v' = v ∨ k' ≠ k ∧ t.lookup k' = some v' := by
  rw [lookup_replace h] at h'
  split at h'
  · next hk => exact .inl ⟨hk, (Option.some.inj h').symm⟩
  · next hk => exact .inr ⟨hk, h'⟩

/-- `replace` right after `insert` of the same key. -/
theorem replace_insert (t : Table K V) (k : K) (v w : V) :
    (t.insert k v).replace k w = t.insert k w := by
  apply AList.ext
  show List.kreplace k w (⟨k, v⟩ :: t.entries.kerase k) = ⟨k, w⟩ :: t.entries.kerase k
  exact List.lookmap_cons_some _ _ (by simp)

/-! ### Counting entries -/

/-- How many keys of the table satisfy `p`. -/
def countKeys (p : K → Bool) (t : Table K V) : ℕ := t.keys.countP p

theorem countKeys_insert (p : K → Bool) {t : Table K V} {k : K} (h : k ∉ t) (v : V) :
    countKeys p (t.insert k v) = countKeys p t + if p k then 1 else 0 := by
  unfold countKeys
  rw [AList.keys_insert, List.erase_of_not_mem h, List.countP_cons]

theorem countKeys_erase (p : K → Bool) {t : Table K V} {k : K} (h : k ∈ t) :
    countKeys p (t.erase k) + (if p k then 1 else 0) = countKeys p t := by
  unfold countKeys
  have hperm := List.perm_cons_erase (AList.mem_keys.mp h)
  rw [AList.keys_erase, hperm.countP_eq, List.countP_cons]

theorem countKeys_replace (p : K → Bool) (t : Table K V) (k : K) (v : V) :
    countKeys p (t.replace k v) = countKeys p t := by
  unfold countKeys
  rw [AList.keys_replace]

theorem countKeys_pos {p : K → Bool} {t : Table K V} :
    0 < countKeys p t ↔ ∃ k v, t.lookup k = some v ∧ p k = true := by
  unfold countKeys
  rw [List.countP_pos_iff]
  constructor
  · rintro ⟨k, hk, hp⟩
    obtain ⟨v, hv⟩ := exists_lookup hk
    exact ⟨k, v, hv, hp⟩
  · rintro ⟨k, v, hv, hp⟩
    exact ⟨k, mem_of_lookup hv, hp⟩

/-- The keys that satisfy `p` are counted by which of them the table has. -/
theorem countKeys_congr {p : K → Bool} {t t' : Table K V}
    (h : ∀ k, p k = true → (t.lookup k).isSome = (t'.lookup k).isSome) : countKeys p t = countKeys p t' := by
  have hmem : ∀ k, p k = true → (k ∈ t.keys ↔ k ∈ t'.keys) := by
    intro k hk
    rw [AList.mem_keys.symm, AList.mem_keys.symm, ← AList.lookup_isSome, ← AList.lookup_isSome, h k hk]
  have hperm : (t.keys.filter p).Perm (t'.keys.filter p) := by
    refine (List.perm_ext_iff_of_nodup (t.keys_nodup.filter p) (t'.keys_nodup.filter p)).mpr fun k => ?_
    rw [List.mem_filter, List.mem_filter]
    exact ⟨fun hk => ⟨(hmem k hk.2).mp hk.1, hk.2⟩, fun hk => ⟨(hmem k hk.2).mpr hk.1, hk.2⟩⟩
  unfold countKeys
  rw [List.countP_eq_length_filter, List.countP_eq_length_filter, hperm.length_eq]

/-- The number of entries. -/
def len (t : Table K V) : ℕ := t.entries.length

omit [DecidableEq K] in
theorem len_eq_countKeys (t : Table K V) : len t = countKeys (fun _ => true) t := by
  unfold len countKeys AList.keys List.keys
  rw [List.countP_true, List.length_map]

omit [DecidableEq K] in
theorem len_eq_length_keys (t : Table K V) : len t = t.keys.length := by
  unfold len AList.keys List.keys
  rw [List.length_map]

theorem len_insert {t : Table K V} {k : K} (h : k ∉ t) (v : V) :
    len (t.insert k v) = len t + 1 := by
  rw [len_eq_countKeys, len_eq_countKeys, countKeys_insert _ h, if_pos rfl]

theorem len_erase {t : Table K V} {k : K} (h : k ∈ t) : len (t.erase k) + 1 = len t := by
  have := countKeys_erase (fun _ => true) h
  rw [if_pos rfl] at this
  rw [len_eq_countKeys, len_eq_countKeys, this]

theorem len_replace (t : Table K V) (k : K) (v : V) : len (t.replace k v) = len t := by
  rw [len_eq_countKeys, len_eq_countKeys, countKeys_replace]

omit [DecidableEq K] in
theorem len_eq_zero {t : Table K V} : len t = 0 ↔ t.entries = [] := List.length_eq_zero_iff

/-! ### Another order of the same entries -/

/-- The same entries, visited in another order. -/
def Reordered (t t' : Table K V) : Prop := t.entries.Perm t'.entries

/-- Tables with the same values are the same entries in some order. -/
theorem reordered_of_lookup {t t' : Table K V} (h : ∀ k, t.lookup k = t'.lookup k) : Reordered t t' :=
  List.lookup_ext t.nodupKeys t'.nodupKeys fun k v => by
    show v ∈ t.lookup k ↔ v ∈ t'.lookup k
    rw [h]

/-- The entries with keys that satisfy `p`, in tables that agree on those keys. -/
theorem entries_filter_perm {p : K → Bool} {t t' : Table K V}
    (h : ∀ k, p k = true → t.lookup k = t'.lookup k) :
    (t.entries.filter fun e => p e.1).Perm (t'.entries.filter fun e => p e.1) := by
  have hnodup : ∀ t : Table K V, t.entries.Nodup := fun t => List.Nodup.of_map _ t.nodupKeys
  refine (List.perm_ext_iff_of_nodup ((hnodup t).filter _) ((hnodup t').filter _)).mpr fun e => ?_
  rw [List.mem_filter, List.mem_filter, ← lookup_eq_some (v := e.2), ← lookup_eq_some (v := e.2)]
  exact ⟨fun he => ⟨h e.1 he.2 ▸ he.1, he.2⟩, fun he => ⟨(h e.1 he.2).symm ▸ he.1, he.2⟩⟩

/-- The entries in the reverse order. -/
def reverse (t : Table K V) : Table K V :=
  ⟨t.entries.reverse, (List.perm_nodupKeys (List.reverse_perm _)).mpr t.nodupKeys⟩

omit [DecidableEq K] in
theorem reordered_reverse (t : Table K V) : Reordered t t.reverse := (List.reverse_perm _).symm

theorem Reordered.lookup {t t' : Table K V} (h : Reordered t t') (k : K) :
    t.lookup k = t'.lookup k :=
  AList.perm_lookup h

omit [DecidableEq K] in
theorem Reordered.countKeys {t t' : Table K V} (h : Reordered t t') (p : K → Bool) :
    countKeys p t = countKeys p t' :=
  (h.map Sigma.fst).countP_eq p

omit [DecidableEq K] in
theorem Reordered.len {t t' : Table K V} (h : Reordered t t') : len t = len t' := h.length_eq

end Table

end WayNetstack.Lib
