import SwapiService.Lib.TaskPool

/-!
# What tasks know about the past

A suspended activation holds values it has read earlier, from a store that has
changed since.  To say what they were read from, a task's assertion may speak about
the reactions so far.  An ownership discipline makes such assertions easy to keep: a
reaction concerns the keys of its task only, so what other tasks assert about the
past of their own keys still holds.

## Main definitions

* `Reaction`, `reactions` — the reactions of a trace: the store each found, its task
  and its choice.
* `History D` — assertions about the reactions so far, kept under a discipline.

## Main results

* `History.asserts_of_run` — they hold at the end of every run that starts without
  tasks.
-/

namespace TaskPool

open Transition

variable {σ τ χ ε κ : Type*}

/-- A reaction: the store it found, the task that reacted, and the choice. -/
structure Reaction (σ τ χ : Type*) where
  store : σ
  task : τ
  choice : χ

/-- The reactions of a trace. -/
def reactions (tr : List (Config σ τ × Act χ ε)) : List (Reaction σ τ χ) :=
  tr.filterMap fun p =>
    match p.2 with
    | .run i c => p.1.pool[i]?.map fun t => ⟨p.1.store, t, c⟩
    | .env _ => none

theorem reactions_run {M : Machine σ τ χ ε} {s s' : Config σ τ} {i : ℕ} {c : χ} {t : τ}
    {rest ts : List τ} (hr : M.Runs s i c s' t rest ts) (tr : List (Config σ τ × Act χ ε)) :
    reactions (tr ++ [(s, .run i c)]) = reactions tr ++ [⟨s.store, t, c⟩] := by
  rw [reactions, List.filterMap_append]
  simp only [List.filterMap_cons, List.filterMap_nil, hr.get, Option.map_some]
  rfl

theorem reactions_env (s : Config σ τ) (e : ε) (tr : List (Config σ τ × Act χ ε)) :
    reactions (tr ++ [(s, .env e)]) = reactions tr := by
  rw [reactions, List.filterMap_append]
  exact List.append_nil _

/-- What ran is among the reactions. -/
theorem mem_reactions {tr : List (Config σ τ × Act χ ε)} {p : Config σ τ × Act χ ε} (hp : p ∈ tr)
    {i : ℕ} {c : χ} {t : τ} (hc : p.2 = .run i c) (ht : p.1.pool[i]? = some t) :
    ⟨p.1.store, t, c⟩ ∈ reactions tr := by
  refine List.mem_filterMap.mpr ⟨p, hp, ?_⟩
  simp only [hc, ht, Option.map_some]

/-- Assertions of the tasks about the reactions so far.  The environment establishes
them for tasks with keys that no reaction has had, a reaction for the tasks it puts
back, and neither disturbs those of tasks with other keys. -/
structure History {M : Machine σ τ χ ε} (D : Discipline M κ) where
  /-- What a task asserts about the reactions so far and the store. -/
  Asserts : List (Reaction σ τ χ) → σ → τ → Prop
  react_used : ∀ {s t c s' ts k}, D.Ok s t → M.react s t c = some (s', ts) → D.used s k →
    D.used s' k
  env_used : ∀ {s e s' ts k}, M.env s e = some (s', ts) → D.used s k → D.used s' k
  react_asserts : ∀ {h s t c s' ts}, D.Good s → D.Ok s t → (D.owned t).Nodup → Asserts h s t →
    M.react s t c = some (s', ts) → ∀ u ∈ ts, Asserts (h ++ [⟨s, t, c⟩]) s' u
  react_frame : ∀ {h s t c s' ts u}, D.Good s → D.Ok s t → (D.owned t).Nodup →
    M.react s t c = some (s', ts) → D.Ok s u → (D.owned t).Disjoint (D.owned u) →
    Asserts h s u → Asserts (h ++ [⟨s, t, c⟩]) s' u
  env_asserts : ∀ {h s e s' ts}, (∀ r ∈ h, ∀ k ∈ D.owned r.task, D.used s k) →
    M.env s e = some (s', ts) → ∀ u ∈ ts, Asserts h s' u
  env_frame : ∀ {h s e s' ts u}, M.env s e = some (s', ts) → Asserts h s u → Asserts h s' u

/-- **The history rule.**  The assertions hold at the end of every run that starts
without tasks. -/
theorem History.asserts_of_run {M : Machine σ τ χ ε} {D : Discipline M κ} (H : History D)
    {s₀ s : Config σ τ} {tr : List (Config σ τ × Act χ ε)} (h : Run M.step s₀ tr s)
    (hI : D.Inv s₀) (hpool : s₀.pool = []) : ∀ t ∈ s.pool, H.Asserts (reactions tr) s.store t := by
  -- The keys of the reactions are used, which is why the environment's are new.
  suffices hboth : (∀ r ∈ reactions tr, ∀ k ∈ D.owned r.task, D.used s.store k) ∧
      ∀ t ∈ s.pool, H.Asserts (reactions tr) s.store t from hboth.2
  induction h with
  | nil => exact ⟨by simp [reactions], by simp [hpool]⟩
  | @snoc tr s s' a hrun hs ih =>
    obtain ⟨hused, hasserts⟩ := ih
    have hIs : D.Inv s := Discipline.inv_of_run hrun hI
    rcases Machine.step_cases hs with ⟨i, c, t, rest, ts, rfl, hr⟩ | ⟨e, ts, rfl, henv, hp⟩
    · have hok := hIs.ok t hr.mem
      obtain ⟨hnd, -, hdis⟩ := hIs.owned_runs hr
      rw [reactions_run hr]
      refine ⟨fun r hr' k hk => H.react_used hok hr.react ?_, fun u hu => ?_⟩
      · rcases List.mem_append.mp hr' with hr' | hr'
        · exact hused r hr' k hk
        · obtain rfl := List.mem_singleton.mp hr'
          exact D.ok_used hok hk
      · rcases hr.mem_pool'.mp hu with hu | hu
        · have hmem := hr.mem_of_rest hu
          refine H.react_frame hIs.good hok hnd hr.react (hIs.ok u hmem) ?_ (hasserts u hmem)
          intro k hkt hku
          exact hdis hkt (List.mem_flatMap.mpr ⟨u, hu, hku⟩)
        · exact H.react_asserts hIs.good hok hnd (hasserts t hr.mem) hr.react u hu
    · rw [reactions_env]
      refine ⟨fun r hr k hk => H.env_used henv (hused r hr k hk), fun u hu => ?_⟩
      rw [hp, List.mem_append] at hu
      rcases hu with hu | hu
      · exact H.env_frame henv (hasserts u hu)
      · exact H.env_asserts hused henv u hu

end TaskPool
