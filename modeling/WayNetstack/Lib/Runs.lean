import Mathlib.Logic.Relation

/-!
# Runs of labelled systems

A labelled system is a relation between a state, a label and the next state. A run
is a finite sequence of its steps. An observer watches a system: it has a state of
its own, updated at each step from what the step did, which the system never reads.
Where the steps can be computed, so can runs (`System.compute`).
-/

namespace WayNetstack.Lib

open Relation

/-- What every step keeps, a run keeps. -/
theorem run_keeps {σ : Type*} {R : σ → σ → Prop} {P : σ → Prop} (keep : ∀ a b, R a b → P a → P b)
    {a b : σ} (h : ReflTransGen R a b) (ha : P a) : P b := by
  induction h with
  | refl => exact ha
  | tail _ hstep ih => exact keep _ _ hstep ih

/-- A labelled system. -/
abbrev System (σ ι : Type*) := σ → ι → σ → Prop

namespace System

variable {σ ι μ : Type*}

/-- The state `b` can be reached from `a`. -/
def Reaches (R : System σ ι) (a b : σ) : Prop := ReflTransGen (fun s t => ∃ l, R s l t) a b

/-- The steps of `R` whose label is allowed in the state they are taken in. -/
def restrict (R : System σ ι) (ok : σ → ι → Prop) : System σ ι := fun s l t => ok s l ∧ R s l t

/-- The system together with an observer. -/
def observe (R : System σ ι) (obs : σ → ι → σ → μ → μ) : System (σ × μ) ι :=
  fun s l t => R s.1 l t.1 ∧ t.2 = obs s.1 l t.1 s.2

variable {R : System σ ι} {a b : σ}

theorem Reaches.refl (R : System σ ι) (a : σ) : R.Reaches a a := ReflTransGen.refl

theorem Reaches.step {c : σ} {l : ι} (h : R.Reaches a b) (hs : R b l c) : R.Reaches a c :=
  ReflTransGen.tail h ⟨l, hs⟩

/-- **The invariant rule.** What holds at first and is kept by every step from a
reachable state holds in every reachable state. -/
theorem Reaches.invariant {P : σ → Prop} (h : R.Reaches a b) (h0 : P a)
    (keep : ∀ s l t, R.Reaches a s → P s → R s l t → P t) : P b := by
  induction h with
  | refl => exact h0
  | tail hs hstep ih =>
    obtain ⟨l, hl⟩ := hstep
    exact keep _ l _ hs ih hl

/-- Fewer steps reach fewer states. -/
theorem Reaches.mono {R' : System σ ι} (h : R.Reaches a b) (hR : ∀ s l t, R s l t → R' s l t) :
    R'.Reaches a b :=
  ReflTransGen.mono (fun s t ⟨l, hl⟩ => ⟨l, hR s l t hl⟩) _ _ h

/-- A run is carried over to another system, if each of its steps is. -/
theorem Reaches.lift {τ κ : Type*} {R' : System τ κ} (f : σ → τ) (h : R.Reaches a b)
    (hstep : ∀ s l t, R s l t → ∃ k, R' (f s) k (f t)) : R'.Reaches (f a) (f b) :=
  ReflTransGen.lift f (fun s t ⟨l, hl⟩ => hstep s l t hl) _ _ h

/-- A run with an observer, without the observer. -/
theorem Reaches.forget {obs : σ → ι → σ → μ → μ} {ok : σ × μ → ι → Prop} {ok' : σ → ι → Prop}
    (hok : ∀ s l, ok s l → ok' s.1 l) {s t : σ × μ}
    (h : ((R.observe obs).restrict ok).Reaches s t) : (R.restrict ok').Reaches s.1 t.1 := by
  induction h with
  | refl => exact Reaches.refl _ _
  | tail _ hstep ih =>
    obtain ⟨l, hl⟩ := hstep
    exact ih.step ⟨hok _ l hl.1, hl.2.1⟩

/-! ### Computed runs -/

/-- Take the steps of a list, each computed by `next`, as long as they can be taken and
are allowed, with an observer watching. -/
def compute (next : σ → ι → Option σ) (obs : σ → ι → σ → μ → μ) (ok : σ × μ → ι → Prop)
    [∀ s l, Decidable (ok s l)] (s : σ × μ) : List ι → Option (σ × μ)
  | [] => some s
  | l :: ls =>
    if ok s l then
      match next s.1 l with
      | some t => compute next obs ok (t, obs s.1 l t s.2) ls
      | none => none
    else none

/-- What a computed run reaches is reached. -/
theorem reaches_of_compute {next : σ → ι → Option σ} {obs : σ → ι → σ → μ → μ}
    {ok : σ × μ → ι → Prop} [∀ s l, Decidable (ok s l)]
    (hnext : ∀ {s l t}, next s l = some t → R s l t) {ls : List ι} {s t : σ × μ}
    (h : compute next obs ok s ls = some t) : ((R.observe obs).restrict ok).Reaches s t := by
  induction ls generalizing s with
  | nil =>
    cases h
    exact Reaches.refl _ _
  | cons l ls ih =>
    unfold compute at h
    split at h
    · next hok =>
      split at h
      · next u hu =>
        have first : ((R.observe obs).restrict ok).Reaches s (u, obs s.1 l u s.2) :=
          (Reaches.refl _ s).step ⟨hok, hnext hu, rfl⟩
        exact ReflTransGen.trans first (ih h)
      · cases h
    · cases h

/-- A state found by computing a run. -/
theorem exists_of_compute {next : σ → ι → Option σ} {obs : σ → ι → σ → μ → μ}
    {ok : σ × μ → ι → Prop} [∀ s l, Decidable (ok s l)]
    (hnext : ∀ {s l t}, next s l = some t → R s l t) {ls : List ι} {s : σ × μ} {check : σ × μ → Bool}
    (h : (compute next obs ok s ls).any check = true) :
    ∃ t, ((R.observe obs).restrict ok).Reaches s t ∧ check t = true := by
  obtain ⟨t, ht, hcheck⟩ := (Option.any_eq_true _ _).mp h
  exact ⟨t, reaches_of_compute hnext ht, hcheck⟩

/-- A state found by computing a run that nobody watches. -/
theorem exists_of_compute_unwatched {next : σ → ι → Option σ} {ok : σ → ι → Prop}
    [∀ s l, Decidable (ok s l)] (hnext : ∀ {s l t}, next s l = some t → R s l t) {ls : List ι} {s : σ}
    {check : σ → Bool}
    (h : (compute next (fun _ _ _ u => u) (fun s => ok s.1) (s, ()) ls).any (fun s => check s.1) = true) :
    ∃ t, (R.restrict ok).Reaches s t ∧ check t = true := by
  obtain ⟨t, ht, hcheck⟩ := exists_of_compute hnext h
  exact ⟨t.1, Reaches.forget (fun _ _ h => h) ht, hcheck⟩

/-- A state found by computing a run in which every step is allowed. -/
theorem exists_of_compute_free {next : σ → ι → Option σ} (hnext : ∀ {s l t}, next s l = some t → R s l t)
    {ls : List ι} {s : σ} {check : σ → Bool}
    (h : (compute next (fun _ _ _ u => u) (fun _ _ => True) (s, ()) ls).any (fun s => check s.1) = true) :
    ∃ t, R.Reaches s t ∧ check t = true := by
  obtain ⟨t, ht, hcheck⟩ : ∃ t, (R.restrict fun _ _ => True).Reaches s t ∧ check t = true :=
    exists_of_compute_unwatched hnext h
  exact ⟨t, ht.mono fun _ _ _ hstep => hstep.2, hcheck⟩

end System

end WayNetstack.Lib
