import Mathlib.Logic.Basic
import Mathlib.Data.List.Basic

/-!
# Computations that record their calls

A computation that may stop with a fault and that records, in order, the calls
it makes on some other component. `Ok good x Q` is its total-correctness triple:
the computation ends without a fault, in a value that satisfies `Q`, and every
call it made was `good`. The rules follow the shape of a program — `pure`,
`bind`, a loop over a list — so that a proof about a loop states the loop's
invariant and nothing else.
-/

namespace WayNetstack.Lib

universe u

/-- A computation: how it ended, and the calls it made. -/
structure Traced (ε κ α : Type u) where
  /-- The value, or the fault that stopped it. -/
  result : Except ε α
  /-- The calls made, first call first. -/
  calls : List κ

namespace Traced

variable {ε κ α β σ : Type u}

/-- What the first of two computations leads to: the second if it ended well. -/
def andThen (x : Traced ε κ α) (f : α → Traced ε κ β) : Traced ε κ β :=
  match x.result with
  | .ok a => ⟨(f a).result, x.calls ++ (f a).calls⟩
  | .error e => ⟨.error e, x.calls⟩

instance : Monad (Traced ε κ) where
  pure a := ⟨.ok a, []⟩
  bind := andThen

/-- A single call `c`, which ends in `r`. -/
def call (c : κ) (r : Except ε α) : Traced ε κ α := ⟨r, [c]⟩

@[simp] theorem pure_result (a : α) : (pure a : Traced ε κ α).result = .ok a := rfl

@[simp] theorem pure_calls (a : α) : (pure a : Traced ε κ α).calls = [] := rfl

theorem bind_def (x : Traced ε κ α) (f : α → Traced ε κ β) : (x >>= f) = x.andThen f := rfl

theorem pure_bind (a : α) (f : α → Traced ε κ β) : (pure a >>= f) = f a := rfl

/-- A sequence that ended well: both parts did. -/
theorem bind_result_ok {x : Traced ε κ α} {f : α → Traced ε κ β} {b : β} :
    (x >>= f).result = .ok b ↔ ∃ a, x.result = .ok a ∧ (f a).result = .ok b := by
  rw [bind_def]
  unfold andThen
  cases hx : x.result with
  | ok a => simp
  | error e => simp

/-- The value of a result, if it is one. -/
theorem toOption_eq_some {r : Except ε α} {a : α} : r.toOption = some a ↔ r = .ok a := by
  cases r <;> simp [Except.toOption]

/-- The computation `x` ends without a fault in a value satisfying `Q`, and all
its calls are `good`. -/
def Ok (good : κ → Prop) (x : Traced ε κ α) (Q : α → Prop) : Prop :=
  (∃ a, x.result = .ok a ∧ Q a) ∧ ∀ c ∈ x.calls, good c

variable {G : κ → Prop} {P Q : α → Prop}

theorem ok_pure {a : α} (h : Q a) : Ok G (pure a : Traced ε κ α) Q :=
  ⟨⟨a, rfl, h⟩, by simp⟩

theorem ok_call {c : κ} {a : α} (hc : G c) (h : Q a) :
    Ok G (call c (.ok a) : Traced ε κ α) Q :=
  ⟨⟨a, rfl, h⟩, by simpa [call] using hc⟩

theorem Ok.mono {x : Traced ε κ α} (h : Ok G x P) (hPQ : ∀ a, P a → Q a) : Ok G x Q := by
  obtain ⟨⟨a, ha, hP⟩, hc⟩ := h
  exact ⟨⟨a, ha, hPQ a hP⟩, hc⟩

theorem Ok.bind {x : Traced ε κ α} {f : α → Traced ε κ β} {R : β → Prop} (h : Ok G x P)
    (hf : ∀ a, P a → Ok G (f a) R) : Ok G (x >>= f) R := by
  obtain ⟨⟨a, ha, hP⟩, hc⟩ := h
  obtain ⟨⟨b, hb, hR⟩, hc'⟩ := hf a hP
  refine ⟨⟨b, bind_result_ok.mpr ⟨a, ha, hb⟩, hR⟩, ?_⟩
  rw [bind_def]
  unfold andThen
  rw [ha]
  intro c hmem
  rcases List.mem_append.mp hmem with h₁ | h₂
  · exact hc c h₁
  · exact hc' c h₂

/-- The postcondition holds of the value the computation is known to end in. -/
theorem Ok.post {x : Traced ε κ α} (h : Ok G x Q) {a : α} (ha : x.result = .ok a) : Q a := by
  obtain ⟨⟨a', ha', hQ⟩, -⟩ := h
  rw [ha] at ha'
  cases ha'
  exact hQ

/-- Two postconditions of one computation hold together. -/
theorem Ok.and {x : Traced ε κ α} (h₁ : Ok G x P) (h₂ : Ok G x Q) :
    Ok G x fun a => P a ∧ Q a := by
  obtain ⟨⟨a, ha, hP⟩, hc⟩ := h₁
  exact ⟨⟨a, ha, hP, h₂.post ha⟩, hc⟩

/-- The postcondition may mention that the computation ends in the value. -/
theorem Ok.self {x : Traced ε κ α} (h : Ok G x Q) : Ok G x fun a => Q a ∧ x.result = .ok a := by
  obtain ⟨⟨a, ha, hQ⟩, hc⟩ := h
  exact ⟨⟨a, ha, hQ, ha⟩, hc⟩

/-- **The loop rule.** `I l s` is the invariant with `l` still to be visited: if
each visit of the next element ends well and keeps it, so does the whole loop. -/
theorem ok_foldlM {I : List β → σ → Prop} {f : σ → β → Traced ε κ σ}
    (step : ∀ b l s, I (b :: l) s → Ok G (f s b) (I l)) :
    ∀ (l : List β) (s : σ), I l s → Ok G (l.foldlM f s) (I [])
  | [], _, h => ok_pure h
  | b :: l, s, h => by
    rw [List.foldlM_cons]
    exact (step b l s h).bind fun s' hs' => ok_foldlM step l s' hs'

/-- The loop rule for an invariant `I done rest s` of what has been visited and what is left. -/
theorem ok_foldlM_visited {I : List β → List β → σ → Prop} {f : σ → β → Traced ε κ σ} {l : List β}
    {s : σ} (h : I [] l s)
    (step : ∀ done b rest s, done ++ b :: rest = l → I done (b :: rest) s →
      Ok G (f s b) (I (done ++ [b]) rest)) : Ok G (l.foldlM f s) (I l []) := by
  have loop := ok_foldlM (G := G) (f := f) (I := fun rest s => ∃ done, done ++ rest = l ∧ I done rest s) (by
      rintro b rest s ⟨done, hsplit, hI⟩
      refine (step done b rest s hsplit hI).mono fun s' hs' => ⟨done ++ [b], ?_, hs'⟩
      rw [List.append_assoc]
      exact hsplit) l s ⟨[], rfl, h⟩
  refine loop.mono ?_
  rintro s ⟨done, hdone, hI⟩
  rw [List.append_nil] at hdone
  exact hdone ▸ hI

/-- The loop rule for an invariant that does not look at what is left to visit. -/
theorem ok_foldlM_const {I : σ → Prop} {f : σ → β → Traced ε κ σ} {l : List β} {s : σ} (h : I s)
    (step : ∀ b ∈ l, ∀ s, I s → Ok G (f s b) I) : Ok G (l.foldlM f s) I := by
  have key : ∀ (l' : List β) (s : σ), (I s ∧ l' ⊆ l) → Ok G (l'.foldlM f s)
      (fun s => I s ∧ ([] : List β) ⊆ l) := by
    refine ok_foldlM (I := fun l' s => I s ∧ l' ⊆ l) fun b l' s hs => ?_
    rw [List.cons_subset] at hs
    exact (step b hs.2.1 s hs.1).mono fun s' hs' => ⟨hs', hs.2.2⟩
  exact (key l s ⟨h, List.Subset.refl l⟩).mono fun _ h => h.1

/-- A loop that ended well has ended well after each part of its list. -/
theorem foldlM_append_ok {f : σ → β → Traced ε κ σ} {l l' : List β} {s s' : σ} :
    ((l ++ l').foldlM f s).result = .ok s' ↔
      ∃ m, (l.foldlM f s).result = .ok m ∧ (l'.foldlM f m).result = .ok s' := by
  induction l generalizing s with
  | nil =>
    simp only [List.nil_append, List.foldlM_nil, pure_result, Except.ok.injEq]
    exact ⟨fun h => ⟨s, rfl, h⟩, fun ⟨m, hm, h⟩ => hm ▸ h⟩
  | cons b l ih =>
    simp only [List.cons_append, List.foldlM_cons, bind_result_ok, ih]
    exact ⟨fun ⟨a, ha, m, hm, h⟩ => ⟨m, ⟨a, ha, hm⟩, h⟩, fun ⟨m, ⟨a, ha, hm⟩, h⟩ => ⟨a, ha, m, hm, h⟩⟩

/-- A loop whose body leaves the state as it is. -/
theorem foldlM_pure {f : σ → β → Traced ε κ σ} {l : List β} {s : σ} (h : ∀ b ∈ l, f s b = pure s) :
    l.foldlM f s = pure s := by
  induction l with
  | nil => rfl
  | cons b l ih =>
    rw [List.foldlM_cons, h b List.mem_cons_self, pure_bind]
    exact ih fun b' hb' => h b' (List.mem_cons_of_mem _ hb')

end Traced

end WayNetstack.Lib
