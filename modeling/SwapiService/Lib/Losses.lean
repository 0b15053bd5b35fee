import Mathlib.Data.List.Perm.Subperm
import SwapiService.Lib.TaskPool

/-!
# Losses

A machine whose tasks may vanish: messages are lost, and activations are cut off at an
`await` when their process dies.  A task that is lost cannot be told from one that never
gets its turn, so every run with losses is a run without them in which more is in
flight.  What is known of the store in all runs without losses therefore holds in all
runs with losses, and so does what is known of every task.

## Main definitions

* `Machine.lossy` — the machine with losses.
* `Sheds s u` — `s` is `u` without some of its tasks.

## Main results

* `Sheds.step`, `Sheds.run` — a run with losses, seen as one without.
-/

namespace TaskPool

open Transition

variable {σ τ χ ε : Type*}

/-- What may happen when tasks can be lost: an action, or the loss of the task at position
`i` of the pool. -/
inductive LossyAct (χ ε : Type*)
  | act (a : Act χ ε)
  | lose (i : ℕ)

/-- One step of a machine with losses. -/
def Machine.lossy (M : Machine σ τ χ ε) (s : Config σ τ) : LossyAct χ ε → Option (Config σ τ)
  | .act a => M.step s a
  | .lose i => if i < s.pool.length then some { s with pool := s.pool.eraseIdx i } else none

/-- What an action brings in from outside. -/
def Act.fromOutside : Act χ ε → Option ε
  | .run _ _ => none
  | .env e => some e

/-- The same, when tasks can be lost. -/
def LossyAct.fromOutside : LossyAct χ ε → Option ε
  | .act a => a.fromOutside
  | .lose _ => none

/-- `s` is `u` without some of its tasks. -/
structure Sheds (s u : Config σ τ) : Prop where
  store : u.store = s.store
  pool : s.pool.Subperm u.pool

section Sheds

variable {M : Machine σ τ χ ε} {s s' u : Config σ τ}

theorem Sheds.refl (s : Config σ τ) : Sheds s s := ⟨rfl, .refl _⟩

/-- **One step with losses**: with all tasks there it is the same step, or none. -/
theorem Sheds.step (h : Sheds s u) {a : LossyAct χ ε} (hs : M.lossy s a = some s') :
    a.fromOutside = none ∧ Sheds s' u ∨
      ∃ a' u', M.step u a' = some u' ∧ a'.fromOutside = a.fromOutside ∧ Sheds s' u' := by
  obtain ⟨hstore, hpool⟩ := h
  cases a with
  | lose i =>
    simp only [Machine.lossy] at hs
    split_ifs at hs with hi
    obtain rfl := Option.some.inj hs
    exact .inl ⟨rfl, hstore, (List.eraseIdx_sublist ..).subperm.trans hpool⟩
  | act a =>
    rcases Machine.step_cases hs with ⟨i, c, t, rest, ts, rfl, hr⟩ | ⟨e, ts, rfl, henv, hpool'⟩
    · -- The task is among those of `u`, at some other position.
      obtain ⟨j, hj⟩ := List.mem_iff_getElem?.mp (hpool.subset hr.mem)
      obtain ⟨hlt, hget⟩ := List.getElem?_eq_some_iff.mp hj
      have hperm : (t :: u.pool.eraseIdx j).Perm u.pool := by
        rw [← hget]
        exact List.getElem_cons_eraseIdx_perm hlt
      have hrest : rest.Subperm (u.pool.eraseIdx j) :=
        (List.subperm_cons t).mp (hr.pool.symm.subperm.trans (hpool.trans hperm.symm.subperm))
      have hreact : M.react u.store t c = some (s'.store, ts) := by
        rw [hstore]
        exact hr.react
      refine .inr ⟨.run j c, _, Machine.step_run hj hreact, rfl, rfl, ?_⟩
      rw [hr.pool']
      exact hrest.append (.refl _)
    · have hstep : M.step u (.env e) = some ⟨s'.store, u.pool ++ ts⟩ := by
        rw [Machine.step, hstore, henv, Option.map_some]
      refine .inr ⟨.env e, _, hstep, rfl, rfl, ?_⟩
      rw [hpool']
      exact hpool.append (.refl _)

/-- **A run with losses is a run without them**, on the same input, in which more is in
flight. -/
theorem Sheds.run {s₀ : Config σ τ} {tr : List (Config σ τ × LossyAct χ ε)} (h₀ : Sheds s₀ u)
    (h : Run M.lossy s₀ tr s) :
    ∃ tr' u', Run M.step u tr' u' ∧
      tr'.filterMap (fun p => p.2.fromOutside) = tr.filterMap (fun p => p.2.fromOutside) ∧
      Sheds s u' := by
  induction h with
  | nil => exact ⟨[], u, .nil, rfl, h₀⟩
  | @snoc tr s s' a h hs ih =>
    obtain ⟨tr', u', hrun, hinput, hsheds⟩ := ih
    rcases hsheds.step hs with ⟨hnone, hsheds'⟩ | ⟨a', u'', hs', hsame, hsheds'⟩
    · refine ⟨tr', u', hrun, ?_, hsheds'⟩
      simp [hinput, hnone]
    · refine ⟨_, u'', hrun.snoc hs', ?_, hsheds'⟩
      rw [List.filterMap_append, List.filterMap_append, hinput]
      simp only [List.filterMap_cons, hsame, List.filterMap_nil]

end Sheds

end TaskPool
