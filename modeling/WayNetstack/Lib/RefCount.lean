import WayNetstack.Lib.Table

/-!
# Shared resources with reference counts

Holders, kept in one table, share resources, kept in another with the number of
their holders. Each holder's key says which resource it shares: `dom` gives the
resource's key, and `res` the resource a holder believes it holds. `Counted` says
that the two tables agree: the count of a resource is the number of its holders,
a resource with no holder is not kept, and every holder holds the resource kept
under its key.

A holder comes either to a resource already kept (`Counted.acquire`) or with a
new one (`Counted.acquireNew`), and leaves either as one of several holders
(`Counted.release`) or as the last (`Counted.releaseLast`).
-/

namespace WayNetstack.Lib

open Table

variable {K V D R : Type} [DecidableEq K] [DecidableEq D]

/-- The holders of the resource with key `d`. -/
def holdersOf (dom : K → D) (holders : Table K V) (d : D) : ℕ :=
  countKeys (fun k => decide (dom k = d)) holders

/-- The counts are the numbers of holders, and every holder's resource is kept. -/
structure Counted (dom : K → D) (res : V → R) (holders : Table K V) (shared : Table D (R × ℕ)) :
    Prop where
  /-- The count is the number of holders. -/
  count : ∀ {d : D} {r : R} {n : ℕ}, shared.lookup d = some (r, n) → n = holdersOf dom holders d
  /-- No resource is kept without a holder. -/
  pos : ∀ {d : D} {r : R} {n : ℕ}, shared.lookup d = some (r, n) → 0 < n
  /-- A holder's resource is the one kept under its key. -/
  held : ∀ {k : K} {v : V}, holders.lookup k = some v → ∃ n, shared.lookup (dom k) = some (res v, n)

namespace Counted

variable {dom : K → D} {res : V → R} {holders : Table K V} {shared : Table D (R × ℕ)}

theorem empty : Counted dom res (∅ : Table K V) (∅ : Table D (R × ℕ)) :=
  ⟨fun h => by simp at h, fun h => by simp at h, fun h => by simp at h⟩

/-- A resource is kept exactly while it has a holder. -/
theorem lookup_isSome_iff (h : Counted dom res holders shared) (d : D) :
    (∃ r n, shared.lookup d = some (r, n)) ↔ ∃ k v, holders.lookup k = some v ∧ dom k = d := by
  constructor
  · rintro ⟨r, n, hd⟩
    have hpos := h.pos hd
    rw [h.count hd] at hpos
    obtain ⟨k, v, hk, hp⟩ := countKeys_pos.mp hpos
    exact ⟨k, v, hk, of_decide_eq_true hp⟩
  · rintro ⟨k, v, hk, rfl⟩
    obtain ⟨n, hn⟩ := h.held hk
    exact ⟨res v, n, hn⟩

/-- A resource not kept has no holders. -/
theorem holdersOf_eq_zero (h : Counted dom res holders shared) {d : D}
    (hd : shared.lookup d = none) : holdersOf dom holders d = 0 := by
  by_contra hne
  obtain ⟨k, v, hk, hp⟩ := countKeys_pos.mp (Nat.pos_of_ne_zero hne)
  obtain ⟨n, hn⟩ := h.held hk
  rw [of_decide_eq_true hp, hd] at hn
  cases hn

/-- What is kept under a key is known by the holders of the key. -/
theorem lookup_congr {holders' : Table K V} {shared' : Table D (R × ℕ)}
    (h : Counted dom res holders shared) (h' : Counted dom res holders' shared') {d : D}
    (same : ∀ k, dom k = d → (holders.lookup k).map res = (holders'.lookup k).map res) :
    shared.lookup d = shared'.lookup d := by
  have half : ∀ {t t' : Table K V} {s s' : Table D (R × ℕ)}, Counted dom res t s → Counted dom res t' s' →
      (∀ k, dom k = d → (t.lookup k).map res = (t'.lookup k).map res) →
      ∀ x, s.lookup d = some x → s'.lookup d = some x := by
    rintro t t' s s' ht ht' same ⟨r, n⟩ hr
    obtain ⟨k, v, hk, rfl⟩ := (ht.lookup_isSome_iff d).mp ⟨r, n, hr⟩
    obtain ⟨m, hm⟩ := ht.held hk
    obtain ⟨v', hv', hres⟩ := Option.map_eq_some_iff.mp ((same k rfl).symm.trans (by rw [hk]; rfl))
    obtain ⟨m', hm'⟩ := ht'.held hv'
    have hcount : holdersOf dom t (dom k) = holdersOf dom t' (dom k) := by
      refine countKeys_congr fun k' hk' => ?_
      have hsome := congrArg Option.isSome (same k' (of_decide_eq_true hk'))
      rwa [Option.isSome_map, Option.isSome_map] at hsome
    rw [hm', ht'.count hm', ← hcount, ← ht.count hr, hres]
    rw [hr, Option.some.injEq, Prod.mk.injEq] at hm
    rw [hm.1]
  refine Option.ext fun x => ⟨half h h' same x, half h' h (fun k hk => (same k hk).symm) x⟩

theorem holdersOf_insert {k : K} (hk : k ∉ holders) (v : V) (d : D) :
    holdersOf dom (holders.insert k v) d = holdersOf dom holders d + if dom k = d then 1 else 0 := by
  unfold holdersOf
  rw [countKeys_insert _ hk]
  simp

theorem holdersOf_erase (dom : K → D) {k : K} (hk : k ∈ holders) (d : D) :
    holdersOf dom (holders.erase k) d + (if dom k = d then 1 else 0) = holdersOf dom holders d := by
  unfold holdersOf
  rw [← countKeys_erase _ hk]
  simp

/-- A new holder of a resource already kept. -/
theorem acquire (h : Counted dom res holders shared) {k : K} {v : V} {n : ℕ} (hk : k ∉ holders)
    (hn : shared.lookup (dom k) = some (res v, n)) :
    Counted dom res (holders.insert k v) (shared.replace (dom k) (res v, n + 1)) := by
  refine ⟨?_, ?_, ?_⟩
  · intro d r m hm
    rw [holdersOf_insert hk]
    rcases lookup_of_replace hn hm with ⟨rfl, hv⟩ | ⟨hd, hm⟩
    · cases hv
      rw [if_pos rfl, ← h.count hn]
    · rw [if_neg (Ne.symm hd), h.count hm, Nat.add_zero]
  · intro d r m hm
    rcases lookup_of_replace hn hm with ⟨-, hv⟩ | ⟨-, hm⟩
    · cases hv
      exact Nat.succ_pos n
    · exact h.pos hm
  · intro k' v' hk'
    rcases lookup_of_insert hk' with ⟨rfl, rfl⟩ | ⟨-, hk'⟩
    · exact ⟨n + 1, by rw [lookup_replace hn, if_pos rfl]⟩
    · obtain ⟨m, hm⟩ := h.held hk'
      by_cases hd : dom k' = dom k
      · rw [hd, hn, Option.some.injEq, Prod.mk.injEq] at hm
        exact ⟨n + 1, by rw [lookup_replace hn, if_pos hd, hm.1]⟩
      · exact ⟨m, by rw [lookup_replace hn, if_neg hd, hm]⟩

/-- A new holder, with a new resource. -/
theorem acquireNew (h : Counted dom res holders shared) {k : K} {v : V} (hk : k ∉ holders)
    (hn : shared.lookup (dom k) = none) :
    Counted dom res (holders.insert k v) (shared.insert (dom k) (res v, 1)) := by
  refine ⟨?_, ?_, ?_⟩
  · intro d r m hm
    rw [holdersOf_insert hk]
    rcases lookup_of_insert hm with ⟨rfl, hv⟩ | ⟨hd, hm⟩
    · cases hv
      rw [if_pos rfl, h.holdersOf_eq_zero hn]
    · rw [if_neg (Ne.symm hd), h.count hm, Nat.add_zero]
  · intro d r m hm
    rcases lookup_of_insert hm with ⟨-, hv⟩ | ⟨-, hm⟩
    · cases hv
      exact Nat.one_pos
    · exact h.pos hm
  · intro k' v' hk'
    rcases lookup_of_insert hk' with ⟨rfl, rfl⟩ | ⟨-, hk'⟩
    · exact ⟨1, by rw [lookup_insert', if_pos rfl]⟩
    · obtain ⟨m, hm⟩ := h.held hk'
      exact ⟨m, lookup_insert_of_new hn hm⟩

/-- A holder leaves a resource that others still hold. -/
theorem release (h : Counted dom res holders shared) {k : K} {v : V} {r : R} {n : ℕ}
    (hk : holders.lookup k = some v) (hn : shared.lookup (dom k) = some (r, n)) (h1 : n - 1 ≠ 0) :
    Counted dom res (holders.erase k) (shared.replace (dom k) (r, n - 1)) := by
  have hmem := mem_of_lookup hk
  refine ⟨?_, ?_, ?_⟩
  · intro d r' m hm
    have hcount := holdersOf_erase dom hmem d
    rcases lookup_of_replace hn hm with ⟨rfl, hv⟩ | ⟨hd, hm⟩
    · cases hv
      rw [if_pos rfl, ← h.count hn] at hcount
      omega
    · rw [if_neg (Ne.symm hd), ← h.count hm] at hcount
      omega
  · intro d r' m hm
    rcases lookup_of_replace hn hm with ⟨-, hv⟩ | ⟨-, hm⟩
    · cases hv
      exact Nat.pos_of_ne_zero h1
    · exact h.pos hm
  · intro k' v' hk'
    obtain ⟨m, hm⟩ := h.held (lookup_of_erase hk').2
    by_cases hd : dom k' = dom k
    · rw [hd, hn] at hm
      cases hm
      exact ⟨n - 1, by rw [lookup_replace hn, if_pos hd]⟩
    · exact ⟨m, by rw [lookup_replace hn, if_neg hd, hm]⟩

/-- The last holder leaves, and the resource goes with it. -/
theorem releaseLast (h : Counted dom res holders shared) {k : K} {v : V} {r : R} {n : ℕ}
    (hk : holders.lookup k = some v) (hn : shared.lookup (dom k) = some (r, n)) (h1 : n - 1 = 0) :
    Counted dom res (holders.erase k) (shared.erase (dom k)) := by
  have hmem := mem_of_lookup hk
  refine ⟨?_, ?_, ?_⟩
  · intro d r' m hm
    have hcount := holdersOf_erase dom hmem d
    obtain ⟨hd, hm⟩ := lookup_of_erase hm
    rw [if_neg (Ne.symm hd), ← h.count hm] at hcount
    omega
  · exact fun hm => h.pos (lookup_of_erase hm).2
  · intro k' v' hk'
    obtain ⟨m, hm⟩ := h.held (lookup_of_erase hk').2
    -- another holder of the same resource would make the count at least two
    have hd : dom k' ≠ dom k := by
      intro hd
      have hcount := holdersOf_erase dom hmem (dom k)
      rw [if_pos rfl, ← h.count hn] at hcount
      have hpos : 0 < holdersOf dom (holders.erase k) (dom k) :=
        countKeys_pos.mpr ⟨k', v', hk', decide_eq_true hd⟩
      omega
    exact ⟨m, by rw [lookup_erase', if_neg hd, hm]⟩

/-- A holder changes without changing what it holds. -/
theorem replace (h : Counted dom res holders shared) {k : K} {v v' : V}
    (hk : holders.lookup k = some v) (hv : res v' = res v) :
    Counted dom res (holders.replace k v') shared := by
  refine ⟨fun hd => ?_, h.pos, ?_⟩
  · rw [h.count hd]
    unfold holdersOf
    rw [countKeys_replace]
  · intro k' w hk'
    rcases lookup_of_replace hk hk' with ⟨rfl, rfl⟩ | ⟨-, hk'⟩
    · rw [hv]
      exact h.held hk
    · exact h.held hk'

/-- The order of the entries does not matter. -/
theorem reordered (h : Counted dom res holders shared) {holders' : Table K V}
    {shared' : Table D (R × ℕ)} (hh : Reordered holders holders')
    (hs : Reordered shared shared') : Counted dom res holders' shared' := by
  refine ⟨fun hd => ?_, fun hd => h.pos (by rw [hs.lookup]; exact hd), fun hk => ?_⟩
  · rw [← hs.lookup] at hd
    rw [h.count hd]
    exact hh.countKeys _
  · rw [← hh.lookup] at hk
    obtain ⟨n, hn⟩ := h.held hk
    exact ⟨n, by rw [← hs.lookup]; exact hn⟩

end Counted

end WayNetstack.Lib
