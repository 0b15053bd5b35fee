import Mathlib.Data.List.Flatten
import SwapiService.Lib.TaskPool

/-!
# Redelivery

A machine whose messages may be delivered any number of times: a message in the pool may
be copied, and any task may vanish.  Copies break what depends on who owns a key, for the
copy owns it too.  They do not break a discipline in which messages own nothing.

## Main definitions

* `Machine.redelivering` — the machine in which messages may be copied and tasks lost.

## Main results

* `Machine.redelivering_cases` — a copy or a loss leaves the store and what is in the
  pool, as a set, alone.
* `Discipline.inv_redelivering` — disciplines in which messages own nothing survive.
-/

namespace TaskPool

open Transition

variable {σ τ χ ε κ : Type*}

/-- What may happen when messages can be copied and tasks lost: an action, another delivery
of the message at position `i` of the pool, or the loss of the task there. -/
inductive RedeliveryAct (χ ε : Type*)
  | act (a : Act χ ε)
  | again (i : ℕ)
  | lose (i : ℕ)

/-- One step of a machine in which messages can be copied and tasks lost. -/
def Machine.redelivering (M : Machine σ τ χ ε) (isMessage : τ → Bool) (s : Config σ τ) :
    RedeliveryAct χ ε → Option (Config σ τ)
  | .act a => M.step s a
  | .again i => (s.pool[i]?.filter isMessage).map fun t => { s with pool := s.pool ++ [t] }
  | .lose i => if i < s.pool.length then some { s with pool := s.pool.eraseIdx i } else none

section Redelivery

variable {M : Machine σ τ χ ε} {isMessage : τ → Bool} {s s' : Config σ τ} {a : RedeliveryAct χ ε}

/-- **A step with redelivery** is a step, a copy of a message, or a loss. -/
theorem Machine.redelivering_cases (hs : M.redelivering isMessage s a = some s') :
    (∃ b, M.step s b = some s') ∨
      (∃ t ∈ s.pool, isMessage t = true ∧ s' = { s with pool := s.pool ++ [t] }) ∨
      ∃ pool, pool.Sublist s.pool ∧ s' = { s with pool } := by
  cases a with
  | act b => exact .inl ⟨b, hs⟩
  | again i =>
    obtain ⟨t, ht, rfl⟩ := Option.map_eq_some_iff.mp hs
    obtain ⟨hget, hmessage⟩ := Option.filter_eq_some_iff.mp ht
    exact .inr (.inl ⟨t, List.mem_of_getElem? hget, hmessage, rfl⟩)
  | lose i =>
    simp only [redelivering] at hs
    split_ifs at hs
    obtain rfl := Option.some.inj hs
    exact .inr (.inr ⟨_, List.eraseIdx_sublist .., rfl⟩)

/-- The same, seen from the store and the tasks: a step, or nothing new. -/
theorem Machine.redelivering_store (hs : M.redelivering isMessage s a = some s') :
    (∃ b, M.step s b = some s') ∨ s'.store = s.store ∧ s'.pool ⊆ s.pool := by
  rcases Machine.redelivering_cases hs with hstep | ⟨t, ht, -, rfl⟩ | ⟨pool, hsub, rfl⟩
  · exact .inl hstep
  · refine .inr ⟨rfl, fun u hu => ?_⟩
    rcases List.mem_append.mp hu with hu | hu
    · exact hu
    · obtain rfl := List.mem_singleton.mp hu
      exact ht
  · exact .inr ⟨rfl, hsub.subset⟩

/-- **A discipline survives**, if messages own nothing. -/
theorem Discipline.inv_redelivering {D : Discipline M κ}
    (hfree : ∀ t, isMessage t = true → D.owned t = []) (h : D.Inv s)
    (hs : M.redelivering isMessage s a = some s') : D.Inv s' := by
  rcases Machine.redelivering_cases hs with ⟨b, hstep⟩ | ⟨t, ht, hmessage, rfl⟩ | ⟨pool, hsub, rfl⟩
  · exact Discipline.inv_step h hstep
  · refine ⟨h.good, fun u hu => ?_, ?_⟩
    · rcases List.mem_append.mp hu with hu | hu
      · exact h.ok u hu
      · obtain rfl := List.mem_singleton.mp hu
        exact h.ok u ht
    · rw [List.flatMap_append, List.flatMap_singleton, hfree t hmessage, List.append_nil]
      exact h.nodup
  · exact ⟨h.good, fun u hu => h.ok u (hsub.subset hu),
      h.nodup.sublist (hsub.flatMap _)⟩

end Redelivery

end TaskPool
