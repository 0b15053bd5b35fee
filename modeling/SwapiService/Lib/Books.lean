import Mathlib.Algebra.Order.Group.Multiset
import Mathlib.Tactic.Abel
import SwapiService.Lib.History

/-!
# Books

What a machine owes.  Some of its reactions enter an item, others settle one, and until then
a task of the pool has it open.  If every reaction keeps its books, then at the end of a run
each item that was entered has been settled or is open, counted with multiplicities.  When
two books have the same entries and all items are distinct, what was settled in one way in
the first and in one way in the second is the same just in case the remainders are.

## Main definitions

* `Books M β` — what reactions enter and settle, and what tasks have open.

## Main results

* `Books.perm_of_run` — what was entered has been settled, or is open.
* `perm_iff_remainder` — two ways to divide distinct items.
-/

namespace TaskPool

open Transition

variable {σ τ χ ε β : Type*}

/-- Books for a machine: a reaction settles the item its task has open, or hands it on with
the items it enters; nothing comes in from outside. -/
structure Books (M : Machine σ τ χ ε) (β : Type*) where
  /-- The items a reaction enters. -/
  entered : Reaction σ τ χ → List β
  /-- The items a reaction settles. -/
  settled : Reaction σ τ χ → List β
  /-- The items a task has open. -/
  opened : τ → List β
  react : ∀ {s t c s' ts}, M.react s t c = some (s', ts) →
    (settled ⟨s, t, c⟩ ++ ts.flatMap opened).Perm (entered ⟨s, t, c⟩ ++ opened t)
  env : ∀ {s e s' ts}, M.env s e = some (s', ts) → ts.flatMap opened = []

/-- **What was entered has been settled, or is open**, in every run that starts without
tasks. -/
theorem Books.perm_of_run {M : Machine σ τ χ ε} (B : Books M β) {s₀ s : Config σ τ}
    {tr : List (Config σ τ × Act χ ε)} (h : Run M.step s₀ tr s) (hpool : s₀.pool = []) :
    ((reactions tr).flatMap B.settled ++ s.pool.flatMap B.opened).Perm
      ((reactions tr).flatMap B.entered) := by
  induction h with
  | nil => simp [reactions, hpool]
  | @snoc tr s s' a h hs ih =>
    rcases Machine.step_cases hs with ⟨i, c, t, rest, ts, rfl, hr⟩ | ⟨e, ts, rfl, henv, hp⟩
    · rw [reactions_run hr, List.flatMap_append, List.flatMap_append, List.flatMap_singleton,
        List.flatMap_singleton, hr.pool', List.flatMap_append]
      have hreact := Multiset.coe_eq_coe.mpr (B.react hr.react)
      have hbefore := Multiset.coe_eq_coe.mpr
        (((hr.flatMap_pool B.opened).append_left _).symm.trans ih)
      rw [← Multiset.coe_eq_coe]
      simp only [← Multiset.coe_add] at hreact hbefore ⊢
      -- What the reaction had its hands on, and the rest.
      calc _ = ((reactions tr).flatMap B.settled : Multiset β) + rest.flatMap B.opened
            + (B.settled ⟨s.store, t, c⟩ + ts.flatMap B.opened) := by abel
        _ = ((reactions tr).flatMap B.settled + (B.opened t + rest.flatMap B.opened))
            + B.entered ⟨s.store, t, c⟩ := by rw [hreact]; abel
        _ = _ := by rw [hbefore]
    · rw [reactions_env, hp, List.flatMap_append, B.env henv, List.append_nil]
      exact ih

/-- **Two ways to divide distinct items.**  What each of them takes is the same just in case
what each of them leaves is. -/
theorem perm_iff_remainder {items taken left taken' left' : List β} (hnd : items.Nodup)
    (h : (taken ++ left).Perm items) (h' : (taken' ++ left').Perm items) :
    taken.Perm taken' ↔ ∀ item ∈ items, (item ∈ left ↔ item ∈ left') := by
  have htaken := List.nodup_append'.mp (h.nodup_iff.mpr hnd)
  have htaken' := List.nodup_append'.mp (h'.nodup_iff.mpr hnd)
  -- An item is left if it is not taken.
  have hsplit : ∀ item ∈ items, (item ∈ left ↔ item ∉ taken) := fun item hitem =>
    ⟨fun hleft hmem => htaken.2.2 hmem hleft,
      (List.mem_append.mp (h.mem_iff.mpr hitem)).resolve_left⟩
  have hsplit' : ∀ item ∈ items, (item ∈ left' ↔ item ∉ taken') := fun item hitem =>
    ⟨fun hleft hmem => htaken'.2.2 hmem hleft,
      (List.mem_append.mp (h'.mem_iff.mpr hitem)).resolve_left⟩
  rw [List.perm_ext_iff_of_nodup htaken.1 htaken'.1]
  constructor
  · intro hsame item hitem
    rw [hsplit item hitem, hsplit' item hitem, hsame]
  · intro hsame item
    by_cases hitem : item ∈ items
    · have hiff := hsame item hitem
      rw [hsplit item hitem, hsplit' item hitem] at hiff
      exact not_iff_not.mp hiff
    · refine iff_of_false (fun hmem => hitem ?_) fun hmem => hitem ?_
      · exact h.mem_iff.mp (List.mem_append_left _ hmem)
      · exact h'.mem_iff.mp (List.mem_append_left _ hmem)

end TaskPool
