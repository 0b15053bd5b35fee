import Mathlib.Logic.Hydra
import SwapiService.Lib.TaskPool

/-!
# When a pool comes to rest

Left to itself, a machine whose reactions replace a task by finitely many lesser ones
comes to rest: the pool is a hydra whose heads are the ranks of its tasks.  Nothing
is assumed about how many tasks a reaction puts back, and the rank of a task may depend
on the store, as long as reactions leave it alone.

## Main definitions

* `Machine.Moves` — one step of the machine itself, its environment doing nothing.
* `Ranking` — a rank of tasks that every reaction lowers.
* `Strategy` — a way to go on with the tasks of a class until they are done.

## Main results

* `Ranking.wellFounded_moves` — there is no infinite run without the environment.
* `Strategy.exists_run` — following a strategy leads to where it ends.
-/

namespace TaskPool

open Transition Relation

variable {σ τ χ ε ρ : Type*} {M : Machine σ τ χ ε} {r : ρ → ρ → Prop} {rank : σ → τ → ρ}
  {s s' : Config σ τ}

/-- One step of the machine itself: a task of the pool reacts. -/
def Machine.Moves (M : Machine σ τ χ ε) (s s' : Config σ τ) : Prop :=
  ∃ i c, M.step s (.run i c) = some s'

theorem Machine.Moves.runs (h : M.Moves s s') : ∃ i c t rest ts, M.Runs s i c s' t rest ts := by
  obtain ⟨i, c, hs⟩ := h
  rcases Machine.step_cases hs with ⟨i', c', t, rest, ts, ha, hr⟩ | ⟨e, ts, ha, -⟩
  · cases ha
    exact ⟨i, c, t, rest, ts, hr⟩
  · cases ha

/-- A rank of tasks that every reaction lowers: what the task turns into ranks below it,
and the other tasks keep their ranks. -/
structure Ranking (M : Machine σ τ χ ε) (r : ρ → ρ → Prop) (rank : σ → τ → ρ) : Prop where
  lesser : ∀ {s t c s' ts}, M.react s t c = some (s', ts) → ∀ u ∈ ts, r (rank s' u) (rank s t)
  stable : ∀ {s t c s' ts}, M.react s t c = some (s', ts) → ∀ u, rank s' u = rank s u

/-- The ranks of the pool. -/
def Config.ranks (rank : σ → τ → ρ) (s : Config σ τ) : Multiset ρ :=
  ((s.pool.map (rank s.store) : List ρ) : Multiset ρ)

/-- A step cuts off one head of the hydra, and lesser ones grow. -/
theorem Ranking.cutExpand (h : Ranking M r rank) (hs : M.Moves s s') :
    CutExpand r (s'.ranks rank) (s.ranks rank) := by
  obtain ⟨i, c, t, rest, ts, hr⟩ := hs.runs
  refine ⟨((ts.map (rank s'.store) : List ρ) : Multiset ρ), rank s.store t, ?_, ?_⟩
  · intro a ha
    obtain ⟨u, hu, rfl⟩ := List.mem_map.mp (Multiset.mem_coe.mp ha)
    exact h.lesser hr.react u hu
  · have hrest : rest.map (rank s'.store) = rest.map (rank s.store) :=
      List.map_congr_left fun u _ => h.stable hr.react u
    have hpool := hr.pool.map (rank s.store)
    rw [Config.ranks, Config.ranks, hr.pool', List.map_append, hrest, ← Multiset.coe_singleton,
      Multiset.coe_add, Multiset.coe_add, Multiset.coe_eq_coe]
    -- The head that was cut off goes to the front, where it was.
    exact List.perm_append_comm.trans (hpool.append_right _).symm

/-- **A machine with a ranking comes to rest**: there is no infinite run without the
environment. -/
theorem Ranking.wellFounded_moves (h : Ranking M r rank) (hwf : WellFounded r) :
    WellFounded fun s' s => M.Moves s s' :=
  Subrelation.wf h.cutExpand (InvImage.wf (Config.ranks rank) hwf.cutExpand)

/-! ### Strategies -/

/-- A way to go on with the tasks of the class `P` until they are done, in stores that
satisfy `I`: a choice that meets `ok`, after which all is as before. -/
structure Strategy (M : Machine σ τ χ ε) (ok : χ → Prop) (I : σ → Prop) (P Done : τ → Prop) :
    Prop where
  advance : ∀ {s t}, I s → P t → ¬ Done t →
    ∃ c s' ts, ok c ∧ M.react s t c = some (s', ts) ∧ I s' ∧ ∀ u ∈ ts, P u

/-- **Following a strategy leads to where it ends**, by choices that meet `ok`. -/
theorem Strategy.exists_run {ok : χ → Prop} {I : σ → Prop} {P Done : τ → Prop}
    (h : Strategy M ok I P Done) (hrank : Ranking M r rank) (hwf : WellFounded r)
    (hI : I s.store) (hP : ∀ t ∈ s.pool, P t) :
    ∃ tr s', Run M.step s tr s' ∧ (∀ p ∈ tr, ∃ i c, p.2 = .run i c ∧ ok c) ∧ I s'.store ∧
      ∀ t ∈ s'.pool, P t ∧ Done t := by
  -- On the steps that are left.
  induction s using (hrank.wellFounded_moves hwf).induction with
  | _ s ih =>
    by_cases hdone : ∀ t ∈ s.pool, Done t
    · exact ⟨[], s, .nil, by simp, hI, fun t ht => ⟨hP t ht, hdone t ht⟩⟩
    · simp only [not_forall] at hdone
      obtain ⟨t, ht, hopen⟩ := hdone
      obtain ⟨i, hi⟩ := List.mem_iff_getElem?.mp ht
      obtain ⟨c, store, ts, hc, hreact, hI', hts⟩ := h.advance hI (hP t ht) hopen
      have hstep := Machine.step_run hi hreact
      have hP' : ∀ u ∈ s.pool.eraseIdx i ++ ts, P u := by
        intro u hu
        rcases List.mem_append.mp hu with hu | hu
        · exact hP u (List.mem_of_mem_eraseIdx hu)
        · exact hts u hu
      obtain ⟨tr, s', hrun, hall, hend⟩ := ih _ ⟨i, c, hstep⟩ hI' hP'
      have hfirst : Run M.step s [(s, .run i c)] _ := Run.nil.snoc hstep
      refine ⟨_, s', hfirst.append hrun, fun p hp => ?_, hend⟩
      rcases List.mem_append.mp hp with hp | hp
      · obtain rfl := List.mem_singleton.mp hp
        exact ⟨i, c, rfl, hc⟩
      · exact hall p hp

end TaskPool
