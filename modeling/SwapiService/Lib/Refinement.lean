import Mathlib.Logic.Relation
import SwapiService.Lib.Transition

/-!
# Refinement

Two levels of one design: a system given by a partial step function, and what it is
for, given by a relation between abstract states.  The system refines the relation
when each of its steps, seen through an abstraction function, is a step of the
relation or no step at all.  What the abstract steps keep or only add to, the system
then keeps or only adds to, and what observers have seen of it at different times
fits together.

## Main definitions

* `Refinement step I abs next` — under the invariant `I`, every step of `step` is an
  abstract step or a stutter.

## Main results

* `Refinement.star` — a run of the system is a sequence of abstract steps.
* `Refinement.pairwise_log` — a log of observations, of which every earlier one agrees
  with every later one.
-/

namespace Transition

open Relation

variable {σ α ρ β : Type*}

/-- Under the invariant `I`, which steps keep, every step is an abstract step or leaves
the abstract state alone. -/
structure Refinement (step : σ → α → Option σ) (I : σ → Prop) (abs : σ → ρ)
    (next : ρ → ρ → Prop) : Prop where
  keeps : ∀ {s a s'}, I s → step s a = some s' → I s'
  steps : ∀ {s a s'}, I s → step s a = some s' → abs s' = abs s ∨ next (abs s) (abs s')

section Refinement

variable {step : σ → α → Option σ} {I : σ → Prop} {abs : σ → ρ} {next : ρ → ρ → Prop}
  {s₀ s s' : σ} {tr : List (σ × α)}

/-- One step, as a sequence of abstract steps. -/
theorem Refinement.star_step (R : Refinement step I abs next) {a : α} (hI : I s)
    (hs : step s a = some s') : ReflTransGen next (abs s) (abs s') := by
  rcases R.steps hI hs with heq | hnext
  · rw [heq]
  · exact .single hnext

theorem Refinement.invariant (R : Refinement step I abs next) (hI : I s₀)
    (h : Run step s₀ tr s) : I s :=
  h.invariant hI R.keeps

/-- **A run is a sequence of abstract steps.** -/
theorem Refinement.star (R : Refinement step I abs next) (hI : I s₀)
    (h : Run step s₀ tr s) : ReflTransGen next (abs s₀) (abs s) := by
  induction h with
  | nil => exact .refl
  | snoc h hs ih => exact ih.trans (R.star_step (R.invariant hI h) hs)

/-- **Observations agree.**  Suppose that every step leaves the log alone or appends one
observation of the abstract state, and that an observation of a state agrees with those
of all states that can follow it.  Then every observation in the log agrees with all
later ones. -/
theorem Refinement.pairwise_log (R : Refinement step I abs next) {log : σ → List β}
    {Shows : ρ → β → Prop} {Agree : β → β → Prop} (hI : I s₀) (hlog₀ : log s₀ = [])
    (hlog : ∀ {s a s'}, I s → step s a = some s' →
      log s' = log s ∨ ∃ b, log s' = log s ++ [b] ∧ Shows (abs s) b)
    (hagree : ∀ {r r' b b'}, ReflTransGen next r r' → Shows r b → Shows r' b' → Agree b b')
    (h : Run step s₀ tr s) : (log s).Pairwise Agree := by
  -- Every observation is one of a state that the present one follows.
  suffices hboth : (log s).Pairwise Agree ∧
      ∀ b ∈ log s, ∃ r, Shows r b ∧ ReflTransGen next r (abs s) from hboth.1
  induction h with
  | nil =>
    rw [hlog₀]
    exact ⟨List.Pairwise.nil, by simp⟩
  | @snoc tr s s' a h hs ih =>
    obtain ⟨hpair, hshown⟩ := ih
    have hIs := R.invariant hI h
    have hstar := R.star_step hIs hs
    have hlater : ∀ b ∈ log s, ∃ r, Shows r b ∧ ReflTransGen next r (abs s') := by
      intro b hb
      obtain ⟨r, hr, hto⟩ := hshown b hb
      exact ⟨r, hr, hto.trans hstar⟩
    rcases hlog hIs hs with heq | ⟨b, heq, hb⟩
    · rw [heq]
      exact ⟨hpair, hlater⟩
    · rw [heq]
      refine ⟨List.pairwise_append.mpr ⟨hpair, List.pairwise_singleton _ _, ?_⟩, ?_⟩
      · intro b₁ hb₁ b₂ hb₂
        obtain rfl := List.mem_singleton.mp hb₂
        obtain ⟨r, hr, hto⟩ := hshown b₁ hb₁
        exact hagree hto hr hb
      · intro b' hb'
        rcases List.mem_append.mp hb' with hb' | hb'
        · exact hlater b' hb'
        · obtain rfl := List.mem_singleton.mp hb'
          exact ⟨abs s, hb, hstar⟩

end Refinement

end Transition
