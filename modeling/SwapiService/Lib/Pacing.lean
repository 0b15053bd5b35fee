import SwapiService.Lib.History

/-!
# Pacing

An ownership discipline says who may act on a key; with a clock it also says how often.
Suppose that a task reacts only once it is ready, and that a reaction which takes a turn
at a key hands the key to tasks that are not ready before a period has passed.  Then the
turns at a key are a period apart, in every run, for nobody else could have taken one in
between.

## Main definitions

* `Pacing D` — a clock, when tasks are ready, and which reactions are turns.
* `Pacing.turns` — the times of the turns at a key.

## Main results

* `Pacing.paced_of_run` — the turns are a period apart, and who has the key now has
  waited for a period since the last one.
* `length_mul_le_of_pairwise` — how many there can be.
-/

namespace TaskPool

open Transition

variable {σ τ χ ε κ : Type*}

/-- A pace for a discipline. -/
structure Pacing {M : Machine σ τ χ ε} (D : Discipline M κ) where
  /-- The time. -/
  clock : σ → ℕ
  /-- The time a task is ready. -/
  ready : τ → ℕ
  /-- The time between two turns at a key. -/
  period : ℕ
  /-- The reaction is a turn at the key. -/
  isTurn : κ → Reaction σ τ χ → Bool
  react_clock : ∀ {s t c s' ts}, M.react s t c = some (s', ts) → clock s ≤ clock s'
  env_clock : ∀ {s e s' ts}, M.env s e = some (s', ts) → clock s ≤ clock s'
  react_used : ∀ {s t c s' ts k}, M.react s t c = some (s', ts) → D.used s k → D.used s' k
  env_used : ∀ {s e s' ts k}, M.env s e = some (s', ts) → D.used s k → D.used s' k
  react_ready : ∀ {s t c s' ts}, M.react s t c = some (s', ts) → ready t ≤ clock s
  turn_owned : ∀ {s t c k}, isTurn k ⟨s, t, c⟩ = true → k ∈ D.owned t
  turn_waits : ∀ {s t c s' ts k}, M.react s t c = some (s', ts) → isTurn k ⟨s, t, c⟩ = true →
    ∀ u ∈ ts, k ∈ D.owned u → clock s + period ≤ ready u

/-- Times a period apart, up to `last`, are few. -/
theorem length_mul_le_of_pairwise {period first last : ℕ} {l : List ℕ}
    (h : l.Pairwise fun a b => a + period ≤ b) (hfirst : ∀ a ∈ l, first ≤ a)
    (hlast : ∀ a ∈ l, a ≤ last) (hle : first ≤ last + period) :
    l.length * period + first ≤ last + period := by
  induction l generalizing first with
  | nil => simpa using hle
  | cons a l ih =>
    obtain ⟨hafter, hrest⟩ := List.pairwise_cons.mp h
    have ha := hfirst a List.mem_cons_self
    have ha' := hlast a List.mem_cons_self
    have hbound := ih hrest hafter (fun b hb => hlast b (List.mem_cons_of_mem _ hb)) (by omega)
    rw [List.length_cons, Nat.succ_mul]
    omega

section Pacing

variable {M : Machine σ τ χ ε} {D : Discipline M κ} {s₀ s : Config σ τ}
  {tr : List (Config σ τ × Act χ ε)}

/-- The times of the turns at a key, in their order. -/
def Pacing.turns (P : Pacing D) (tr : List (Config σ τ × Act χ ε)) (k : κ) : List ℕ :=
  ((reactions tr).filter (P.isTurn k)).map fun r => P.clock r.store

/-- The turns so far are a period apart, and so are the last turn and the time a task
that has the key now can take the next. -/
structure Pacing.Paced (P : Pacing D) (tr : List (Config σ τ × Act χ ε)) (s : Config σ τ) :
    Prop where
  apart : ∀ k, (P.turns tr k).Pairwise fun a b => a + P.period ≤ b
  past : ∀ k, ∀ a ∈ P.turns tr k, a ≤ P.clock s.store
  waits : ∀ t ∈ s.pool, ∀ k ∈ D.owned t, ∀ a ∈ P.turns tr k,
    a + P.period ≤ max (P.ready t) (P.clock s.store)
  used : ∀ k, ∀ _ ∈ P.turns tr k, D.used s.store k

theorem Pacing.turns_run (P : Pacing D) {s' : Config σ τ} {i : ℕ} {c : χ} {t : τ}
    {rest ts : List τ} (hr : M.Runs s i c s' t rest ts) (k : κ) :
    P.turns (tr ++ [(s, .run i c)]) k
      = P.turns tr k ++ if P.isTurn k ⟨s.store, t, c⟩ then [P.clock s.store] else [] := by
  rw [turns, reactions_run hr, List.filter_append, List.map_append]
  by_cases hturn : P.isTurn k ⟨s.store, t, c⟩ = true
  · rw [List.filter_singleton, hturn]
    rfl
  · rw [Bool.not_eq_true] at hturn
    rw [List.filter_singleton, hturn]
    rfl

/-- Keys that are not owned by the task have no turn. -/
theorem Pacing.turns_run_of_not_owned (P : Pacing D) {s' : Config σ τ} {i : ℕ} {c : χ} {t : τ}
    {rest ts : List τ} (hr : M.Runs s i c s' t rest ts) {k : κ} (hk : k ∉ D.owned t) :
    P.turns (tr ++ [(s, .run i c)]) k = P.turns tr k := by
  have hturn : ¬ P.isTurn k ⟨s.store, t, c⟩ = true := fun hturn => hk (P.turn_owned hturn)
  rw [P.turns_run hr, if_neg hturn, List.append_nil]

/-- What is a turn now, or was one before. -/
theorem Pacing.mem_turns_run (P : Pacing D) {s' : Config σ τ} {i : ℕ} {c : χ} {t : τ}
    {rest ts : List τ} (hr : M.Runs s i c s' t rest ts) {k : κ} {a : ℕ} :
    a ∈ P.turns (tr ++ [(s, .run i c)]) k ↔
      a ∈ P.turns tr k ∨ P.isTurn k ⟨s.store, t, c⟩ = true ∧ a = P.clock s.store := by
  rw [P.turns_run hr, List.mem_append]
  refine or_congr_right ?_
  by_cases hturn : P.isTurn k ⟨s.store, t, c⟩ = true
  · rw [if_pos hturn, List.mem_singleton]
    exact (and_iff_right hturn).symm
  · rw [if_neg hturn]
    exact iff_of_false List.not_mem_nil fun h => hturn h.1

/-- **A reaction keeps the pace.** -/
theorem Pacing.paced_react (P : Pacing D) {s' : Config σ τ} {i : ℕ} {c : χ} {t : τ}
    {rest ts : List τ} (hI : D.Inv s) (hr : M.Runs s i c s' t rest ts) (h : P.Paced tr s) :
    P.Paced (tr ++ [(s, .run i c)]) s' := by
  have hok := hI.ok t hr.mem
  have hclock := P.react_clock hr.react
  have hready := P.react_ready hr.react
  obtain ⟨hnd, -, hdis⟩ := hI.owned_runs hr
  -- The task is ready, so all earlier turns at its keys are a period ago.
  have hago : ∀ k ∈ D.owned t, ∀ a ∈ P.turns tr k, a + P.period ≤ P.clock s.store := by
    intro k hk a ha
    have hwaits := h.waits t hr.mem k hk a ha
    omega
  refine ⟨fun k => ?_, fun k a ha => ?_, fun u hu k hk a ha => ?_, fun k a ha => ?_⟩
  · rw [P.turns_run hr, List.pairwise_append]
    refine ⟨h.apart k, ?_, fun a ha b hb => ?_⟩
    · split_ifs <;> simp
    · split_ifs at hb with hturn
      · obtain rfl := List.mem_singleton.mp hb
        exact hago k (P.turn_owned hturn) a ha
      · cases hb
  · rcases (P.mem_turns_run hr).mp ha with ha | ⟨-, rfl⟩
    · have hpast := h.past k a ha
      omega
    · exact hclock
  · rcases hr.mem_pool'.mp hu with hu | hu
    · -- The keys of the others are not those of the task.
      have hkt : k ∉ D.owned t := fun hkt => hdis hkt (List.mem_flatMap.mpr ⟨u, hu, hk⟩)
      rw [P.turns_run_of_not_owned hr hkt] at ha
      have hwaits := h.waits u (hr.mem_of_rest hu) k hk a ha
      omega
    · rcases (P.mem_turns_run hr).mp ha with ha | ⟨hturn, rfl⟩
      · have hkt : k ∈ D.owned t :=
          (D.react_owned hok hnd hr.react).2 (List.mem_flatMap.mpr ⟨u, hu, hk⟩)
        have hpast := hago k hkt a ha
        omega
      · have hwaits := P.turn_waits hr.react hturn u hu hk
        omega
  · rcases (P.mem_turns_run hr).mp ha with ha | ⟨hturn, -⟩
    · exact P.react_used hr.react (h.used k a ha)
    · exact P.react_used hr.react (D.ok_used hok (P.turn_owned hturn))

/-- Nothing from outside is a turn, and the keys it hands out have had none. -/
theorem Pacing.paced_env (P : Pacing D) {s' : Config σ τ} {e : ε} {ts : List τ}
    (henv : M.env s.store e = some (s'.store, ts)) (hpool : s'.pool = s.pool ++ ts)
    (h : P.Paced tr s) : P.Paced (tr ++ [(s, .env e)]) s' := by
  have hclock := P.env_clock henv
  have hturns : ∀ k, P.turns (tr ++ [(s, .env e)]) k = P.turns tr k := by
    intro k
    rw [turns, reactions_env, turns]
  refine ⟨fun k => ?_, fun k a ha => ?_, fun u hu k hk a ha => ?_, fun k a ha => ?_⟩
  · rw [hturns]
    exact h.apart k
  · rw [hturns] at ha
    have hpast := h.past k a ha
    omega
  · rw [hturns] at ha
    rw [hpool, List.mem_append] at hu
    rcases hu with hu | hu
    · have hwaits := h.waits u hu k hk a ha
      omega
    · exact absurd (h.used k a ha) ((D.env_owned henv).2 k (List.mem_flatMap.mpr ⟨u, hu, hk⟩))
  · rw [hturns] at ha
    exact P.env_used henv (h.used k a ha)

/-- **Every run keeps the pace.** -/
theorem Pacing.paced_of_run (P : Pacing D) (hI : D.Inv s₀) (h : Run M.step s₀ tr s) :
    P.Paced tr s := by
  induction h with
  | nil => exact ⟨by simp [turns, reactions], by simp [turns, reactions],
      by simp [turns, reactions], by simp [turns, reactions]⟩
  | @snoc tr s s' a hrun hs ih =>
    rcases Machine.step_cases hs with ⟨i, c, t, rest, ts, rfl, hr⟩ | ⟨e, ts, rfl, henv, hpool⟩
    · exact P.paced_react (Discipline.inv_of_run hrun hI) hr ih
    · exact P.paced_env henv hpool ih

/-- The turns at a key are at most one for each period that has begun. -/
theorem Pacing.Paced.length_mul_le {P : Pacing D} (h : P.Paced tr s) (k : κ) :
    (P.turns tr k).length * P.period ≤ P.clock s.store + P.period :=
  length_mul_le_of_pairwise (h.apart k) (fun _ _ => Nat.zero_le _) (h.past k) (Nat.zero_le _)

end Pacing

end TaskPool
