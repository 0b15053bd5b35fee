import Mathlib.Data.List.Basic

/-!
# Runs of a partial step function

A system is a partial step function `step : σ → α → Option σ`: in state `s` the
action `a` either is not enabled (`none`) or leads to one state.  All the
nondeterminism sits in the actions, so a run is fixed by its list of actions and
can be executed.

## Main definitions

* `Run step s₀ tr s` — a run from `s₀` to `s`; its trace `tr` records, for every
  step, the state the step left and the action it took.
* `visited tr s` — the states such a run goes through, the last one included.
* `Reachable step s₀ s` — some run leads from `s₀` to `s`.
* `Along C tr` — every step meets `C`, which may speak of the trace before it.
* `exec step s as`, `execTrace step s as` — the executable forms, used to exhibit runs.
* `restrict C step` — the system in which only the steps meeting `C` are enabled.

## Main results

* `Run.invariant`, `Run.invariant_of` — the induction rules: what every step
  preserves holds at the end of every run, and what every step *meeting a
  condition* preserves holds at the end of every run all of whose steps meet it.
* `Run.forall_visited_iff`, `Run.last_iff`, `Run.pairwise_visited_iff`,
  `Run.last_iff_along` — the exact forms: when a step preserves the property just in
  case it meets the condition, a run stays inside the property, or ends in it, or is
  monotone, just in case all its steps meet the condition.
-/

namespace Transition

variable {σ α : Type*} {step : σ → α → Option σ}

/-- A run of `step` from `s₀`, growing at its end.  The trace keeps for each step
the state it left and its action, so that conditions on single steps can be
stated on the trace. -/
inductive Run (step : σ → α → Option σ) (s₀ : σ) : List (σ × α) → σ → Prop
  | nil : Run step s₀ [] s₀
  | snoc {tr : List (σ × α)} {s s' : σ} {a : α} (h : Run step s₀ tr s)
      (hs : step s a = some s') : Run step s₀ (tr ++ [(s, a)]) s'

/-- The states a run goes through: those its steps left, and the last one. -/
def visited (tr : List (σ × α)) (s : σ) : List σ := tr.map Prod.fst ++ [s]

@[simp] theorem visited_nil (s : σ) : visited ([] : List (σ × α)) s = [s] := rfl

@[simp] theorem visited_snoc (tr : List (σ × α)) (s s' : σ) (a : α) :
    visited (tr ++ [(s, a)]) s' = visited tr s ++ [s'] := by
  simp [visited]

theorem mem_visited_self (tr : List (σ × α)) (s : σ) : s ∈ visited tr s := by
  simp [visited]

/-- `s` can be reached from `s₀`. -/
def Reachable (step : σ → α → Option σ) (s₀ s : σ) : Prop := ∃ tr, Run step s₀ tr s

/-! ### Composing runs -/

theorem Run.append {s₀ s s' : σ} {tr tr' : List (σ × α)} (h : Run step s₀ tr s)
    (h' : Run step s tr' s') : Run step s₀ (tr ++ tr') s' := by
  induction h' with
  | nil => simpa using h
  | snoc _ hs ih =>
    rw [← List.append_assoc]
    exact ih.snoc hs

theorem Reachable.refl (s : σ) : Reachable step s s := ⟨[], .nil⟩

theorem Reachable.trans {s₀ s s' : σ} (h : Reachable step s₀ s) (h' : Reachable step s s') :
    Reachable step s₀ s' := by
  obtain ⟨tr, h⟩ := h
  obtain ⟨tr', h'⟩ := h'
  exact ⟨tr ++ tr', h.append h'⟩

theorem Reachable.tail {s₀ s s' : σ} {a : α} (h : Reachable step s₀ s)
    (hs : step s a = some s') : Reachable step s₀ s' := by
  obtain ⟨tr, h⟩ := h
  exact ⟨_, h.snoc hs⟩

/-- Every state a run goes through splits it in two. -/
theorem Run.split {s₀ s t : σ} {tr : List (σ × α)} (h : Run step s₀ tr s)
    (ht : t ∈ visited tr s) :
    ∃ tr₁ tr₂, tr = tr₁ ++ tr₂ ∧ Run step s₀ tr₁ t ∧ Run step t tr₂ s := by
  induction h with
  | nil =>
    obtain rfl : t = s₀ := by simpa using ht
    exact ⟨[], [], rfl, .nil, .nil⟩
  | @snoc tr s s' a h hs ih =>
    rw [visited_snoc, List.mem_append, List.mem_singleton] at ht
    rcases ht with ht | rfl
    · obtain ⟨tr₁, tr₂, rfl, h₁, h₂⟩ := ih ht
      exact ⟨tr₁, tr₂ ++ [(s, a)], by rw [List.append_assoc], h₁, h₂.snoc hs⟩
    · exact ⟨tr ++ [(s, a)], [], by simp, h.snoc hs, .nil⟩

/-- The state a recorded step left is one the run went through, and the step was
enabled there. -/
theorem Run.of_mem {s₀ s : σ} {tr : List (σ × α)} (h : Run step s₀ tr s) {p : σ × α}
    (hp : p ∈ tr) : ∃ tr₁ tr₂ s', tr = tr₁ ++ p :: tr₂ ∧ Run step s₀ tr₁ p.1 ∧
      step p.1 p.2 = some s' ∧ Run step s' tr₂ s := by
  induction h with
  | nil => simp at hp
  | @snoc tr s s' a h hs ih =>
    rw [List.mem_append, List.mem_singleton] at hp
    rcases hp with hp | rfl
    · obtain ⟨tr₁, tr₂, u, rfl, h₁, hu, h₂⟩ := ih hp
      exact ⟨tr₁, tr₂ ++ [(s, a)], u, by simp, h₁, hu, h₂.snoc hs⟩
    · exact ⟨tr, [], s', by simp, h, hs, .nil⟩

/-! ### Invariants -/

/-- **The invariant rule.**  What every step preserves holds at the end of every
run. -/
theorem Run.invariant {s₀ s : σ} {tr : List (σ × α)} (h : Run step s₀ tr s) {I : σ → Prop}
    (h₀ : I s₀) (hstep : ∀ {s a s'}, I s → step s a = some s' → I s') : I s := by
  induction h with
  | nil => exact h₀
  | snoc _ hs ih => exact hstep ih hs

theorem Reachable.invariant {s₀ s : σ} (h : Reachable step s₀ s) {I : σ → Prop}
    (h₀ : I s₀) (hstep : ∀ {s a s'}, I s → step s a = some s' → I s') : I s := by
  obtain ⟨tr, h⟩ := h
  exact h.invariant h₀ hstep

/-- **The conditional invariant rule.**  What every step meeting `C` preserves
holds at the end of every run all of whose steps meet `C`. -/
theorem Run.invariant_of {s₀ s : σ} {tr : List (σ × α)} (h : Run step s₀ tr s)
    {C : σ → α → Prop} (hC : ∀ p ∈ tr, C p.1 p.2) {I : σ → Prop} (h₀ : I s₀)
    (hstep : ∀ {s a s'}, I s → C s a → step s a = some s' → I s') : I s := by
  induction h with
  | nil => exact h₀
  | @snoc tr s s' a _ hs ih =>
    refine hstep (ih fun p hp => hC p (List.mem_append_left _ hp)) ?_ hs
    exact hC (s, a) (by simp)

/-- **The exact invariant rule.**  Suppose that under an invariant `I`, known to
hold throughout, a step out of a state with `P` stays inside `P` just in case it
meets `C`.  Then a run from a state with `P` stays inside `P` just in case all
its steps meet `C`. -/
theorem Run.forall_visited_iff {s₀ s : σ} {tr : List (σ × α)} (h : Run step s₀ tr s)
    {C : σ → α → Prop} {I P : σ → Prop} (hI : ∀ {tr t}, Run step s₀ tr t → I t) (h₀ : P s₀)
    (hstep : ∀ {s a s'}, I s → P s → step s a = some s' → (P s' ↔ C s a)) :
    (∀ t ∈ visited tr s, P t) ↔ ∀ p ∈ tr, C p.1 p.2 := by
  induction h with
  | nil => simpa using h₀
  | @snoc tr s s' a h hs ih =>
    have hlast : P s → (P s' ↔ C s a) := fun hP => hstep (hI h) hP hs
    simp only [visited_snoc, List.mem_append, List.mem_singleton, or_imp, forall_and,
      forall_eq, ih]
    refine and_congr_right fun hall => hlast ?_
    exact ih.mpr hall s (mem_visited_self tr s)

/-- **The exact rule for the last state.**  Suppose that in runs whose steps all meet
`A`, a step never gains `P`, and loses it just in case it fails `C`.  Then such a run
from a state with `P` ends in `P` just in case all its steps meet `C`. -/
theorem Run.last_iff {s₀ s : σ} {tr : List (σ × α)} (h : Run step s₀ tr s)
    {A C : σ → α → Prop} {I P : σ → Prop} (hA : ∀ p ∈ tr, A p.1 p.2) (hI₀ : I s₀) (h₀ : P s₀)
    (hI : ∀ {s a s'}, I s → A s a → step s a = some s' → I s')
    (hback : ∀ {s a s'}, I s → step s a = some s' → P s' → P s)
    (hstep : ∀ {s a s'}, I s → P s → A s a → step s a = some s' → (P s' ↔ C s a)) :
    P s ↔ ∀ p ∈ tr, C p.1 p.2 := by
  -- The invariant needs `A`, so it goes through the induction along with the claim.
  suffices hboth : I s ∧ (P s ↔ ∀ p ∈ tr, C p.1 p.2) from hboth.2
  induction h with
  | nil => exact ⟨hI₀, iff_of_true h₀ (by simp)⟩
  | @snoc tr s s' a h hs ih =>
    obtain ⟨hIs, ih⟩ := ih fun p hp => hA p (List.mem_append_left _ hp)
    have ha : A s a := hA (s, a) (by simp)
    refine ⟨hI hIs ha hs, ?_⟩
    simp only [List.mem_append, List.mem_singleton, or_imp, forall_and, forall_eq]
    rw [← ih]
    constructor
    · intro hP'
      have hP := hback hIs hs hP'
      exact ⟨hP, (hstep hIs hP ha hs).mp hP'⟩
    · rintro ⟨hP, hC⟩
      exact (hstep hIs hP ha hs).mpr hC

/-- **The exact rule for pairs of states.**  Suppose that under an invariant `I` a step
leads from a state to a related one just in case it meets `C`.  Then along a run every
state is related to all later ones just in case all its steps meet `C`. -/
theorem Run.pairwise_visited_iff {s₀ s : σ} {tr : List (σ × α)} (h : Run step s₀ tr s)
    {C : σ → α → Prop} {I : σ → Prop} {R : σ → σ → Prop} (hI : ∀ {tr t}, Run step s₀ tr t → I t)
    (htrans : ∀ {s t u}, R s t → R t u → R s u)
    (hstep : ∀ {s a s'}, I s → step s a = some s' → (R s s' ↔ C s a)) :
    (visited tr s).Pairwise R ↔ ∀ p ∈ tr, C p.1 p.2 := by
  induction h with
  | nil => simp
  | @snoc tr s s' a h hs ih =>
    have hlast : R s s' ↔ C s a := hstep (hI h) hs
    rw [visited_snoc, List.pairwise_append]
    simp only [List.pairwise_singleton, List.mem_singleton, forall_eq, true_and, List.mem_append,
      or_imp, forall_and]
    rw [ih, ← hlast]
    refine and_congr_right fun hall => ⟨fun hto => hto s (mem_visited_self tr s), fun hR t ht => ?_⟩
    -- Every state visited before is the one the step left, or related to it.
    have hpair := ih.mpr hall
    rw [visited, List.pairwise_append] at hpair
    rw [visited, List.mem_append, List.mem_singleton] at ht
    rcases ht with ht | rfl
    · exact htrans (hpair.2.2 t ht s List.mem_cons_self) hR
    · exact hR

/-! ### Conditions that look back -/

/-- Every step of the trace meets `C`, which may speak of the trace before it. -/
def Along (C : List (σ × α) → σ → α → Prop) (tr : List (σ × α)) : Prop :=
  ∀ tr₁ p tr₂, tr = tr₁ ++ p :: tr₂ → C tr₁ p.1 p.2

theorem along_nil (C : List (σ × α) → σ → α → Prop) : Along C [] := by
  intro tr₁ p tr₂ h
  cases tr₁ <;> cases h

theorem along_snoc {C : List (σ × α) → σ → α → Prop} {tr : List (σ × α)} {s : σ} {a : α} :
    Along C (tr ++ [(s, a)]) ↔ Along C tr ∧ C tr s a := by
  constructor
  · intro h
    refine ⟨fun tr₁ p tr₂ heq => h tr₁ p (tr₂ ++ [(s, a)]) (by rw [heq]; simp), ?_⟩
    exact h tr (s, a) [] rfl
  · rintro ⟨hall, hlast⟩ tr₁ p tr₂ heq
    -- The step is the last one, or one of those before.
    rcases List.eq_nil_or_concat tr₂ with rfl | ⟨tr₂, q, rfl⟩
    · obtain ⟨rfl, hp⟩ := List.append_inj' heq rfl
      obtain rfl := List.singleton_injective hp
      exact hlast
    · rw [List.concat_eq_append, ← List.cons_append, ← List.append_assoc] at heq
      obtain ⟨rfl, -⟩ := List.append_inj' heq rfl
      exact hall tr₁ p tr₂ rfl

/-- **The exact rule for conditions that look back.**  Suppose that along a run whose
steps all meet `A` an invariant `I` of trace and state holds, and a step never gains `P`,
and loses it just in case it fails `C`.  Then such a run from a state with `P` ends in `P`
just in case all its steps meet `C`. -/
theorem Run.last_iff_along {s₀ s : σ} {tr : List (σ × α)} (h : Run step s₀ tr s)
    {A : σ → α → Prop} {C : List (σ × α) → σ → α → Prop} {I : List (σ × α) → σ → Prop}
    {P : σ → Prop} (hA : ∀ p ∈ tr, A p.1 p.2) (hI₀ : I [] s₀) (h₀ : P s₀)
    (hI : ∀ {tr s a s'}, Run step s₀ tr s → I tr s → A s a → step s a = some s' →
      I (tr ++ [(s, a)]) s')
    (hback : ∀ {s a s'}, step s a = some s' → P s' → P s)
    (hstep : ∀ {tr s a s'}, I tr s → P s → step s a = some s' → (P s' ↔ C tr s a)) :
    P s ↔ Along C tr := by
  -- The invariant needs `A`, so it goes through the induction along with the claim.
  suffices hboth : I tr s ∧ (P s ↔ Along C tr) from hboth.2
  induction h with
  | nil => exact ⟨hI₀, iff_of_true h₀ (along_nil C)⟩
  | @snoc tr s s' a h hs ih =>
    obtain ⟨hIs, ih⟩ := ih fun p hp => hA p (List.mem_append_left _ hp)
    refine ⟨hI h hIs (hA (s, a) (by simp)) hs, ?_⟩
    rw [along_snoc, ← ih]
    constructor
    · intro hP'
      have hP := hback hs hP'
      exact ⟨hP, (hstep hIs hP hs).mp hP'⟩
    · rintro ⟨hP, hC⟩
      exact (hstep hIs hP hs).mpr hC

/-! ### Executing -/

/-- Take the actions one after the other; `none` as soon as one is not enabled. -/
def exec (step : σ → α → Option σ) : σ → List α → Option σ
  | s, [] => some s
  | s, a :: as => (step s a).bind fun s' => exec step s' as

theorem run_of_exec {s s' : σ} {as : List α} (h : exec step s as = some s') :
    ∃ tr, Run step s tr s' ∧ tr.map Prod.snd = as := by
  induction as generalizing s with
  | nil =>
    obtain rfl : s = s' := by simpa [exec] using h
    exact ⟨[], .nil, rfl⟩
  | cons a as ih =>
    obtain ⟨t, ht, hrest⟩ := Option.bind_eq_some_iff.mp h
    obtain ⟨tr, hrun, hsnd⟩ := ih hrest
    refine ⟨(s, a) :: tr, ?_, by simp [hsnd]⟩
    have hfirst : Run step s [(s, a)] t := Run.nil.snoc ht
    exact hfirst.append hrun

/-- To exhibit a run into a state satisfying a decidable property, it is enough to
execute its actions and test the state they lead to. -/
theorem exists_run_of_exec {s : σ} (as : List α) {p : σ → Bool}
    (h : (exec step s as).any p = true) :
    ∃ tr s', Run step s tr s' ∧ tr.map Prod.snd = as ∧ p s' = true := by
  cases hexec : exec step s as with
  | none => rw [hexec] at h; simp at h
  | some s' =>
    rw [hexec] at h
    obtain ⟨tr, hrun, htr⟩ := run_of_exec hexec
    exact ⟨tr, s', hrun, htr, by simpa using h⟩

theorem exists_reachable_of_exec {s : σ} (as : List α) {p : σ → Bool}
    (h : (exec step s as).any p = true) : ∃ s', Reachable step s s' ∧ p s' = true := by
  obtain ⟨tr, s', hrun, -, hp⟩ := exists_run_of_exec as h
  exact ⟨s', ⟨tr, hrun⟩, hp⟩

/-- The same, with the trace. -/
def execTrace (step : σ → α → Option σ) : σ → List α → Option (List (σ × α) × σ)
  | s, [] => some ([], s)
  | s, a :: as => (step s a).bind fun s' =>
      (execTrace step s' as).map fun r => ((s, a) :: r.1, r.2)

theorem run_of_execTrace {s s' : σ} {as : List α} {tr : List (σ × α)}
    (h : execTrace step s as = some (tr, s')) : Run step s tr s' ∧ tr.map Prod.snd = as := by
  induction as generalizing s tr with
  | nil =>
    obtain ⟨rfl, rfl⟩ := Prod.mk.inj (Option.some.inj h)
    exact ⟨.nil, rfl⟩
  | cons a as ih =>
    obtain ⟨t, ht, h⟩ := Option.bind_eq_some_iff.mp h
    obtain ⟨⟨tr', s''⟩, hrest, h⟩ := Option.map_eq_some_iff.mp h
    obtain ⟨rfl, rfl⟩ := Prod.mk.inj h
    obtain ⟨hrun, hsnd⟩ := ih hrest
    refine ⟨?_, by rw [List.map_cons, hsnd]⟩
    have hfirst : Run step s [(s, a)] t := Run.nil.snoc ht
    exact hfirst.append hrun

/-- To exhibit a run with a decidable property of its trace and of the state it leads to,
it is enough to execute its actions. -/
theorem exists_run_of_execTrace {s : σ} (as : List α) {p : List (σ × α) × σ → Bool}
    (h : (execTrace step s as).any p = true) :
    ∃ tr s', Run step s tr s' ∧ tr.map Prod.snd = as ∧ p (tr, s') = true := by
  obtain ⟨⟨tr, s'⟩, hexec, hp⟩ := (Option.any_eq_true _ _).mp h
  obtain ⟨hrun, htr⟩ := run_of_execTrace hexec
  exact ⟨tr, s', hrun, htr, hp⟩

/-- The system in which only the steps meeting a condition are enabled. -/
def restrict (C : σ → α → Bool) (step : σ → α → Option σ) (s : σ) (a : α) : Option σ :=
  if C s a then step s a else none

/-- Its runs are the runs all of whose steps meet the condition. -/
theorem Run.of_restrict {C : σ → α → Bool} {s₀ s : σ} {tr : List (σ × α)}
    (h : Run (restrict C step) s₀ tr s) : Run step s₀ tr s ∧ ∀ p ∈ tr, C p.1 p.2 = true := by
  induction h with
  | nil => exact ⟨.nil, by simp⟩
  | @snoc tr s s' a _ hs ih =>
    obtain ⟨hrun, hall⟩ := ih
    unfold restrict at hs
    split_ifs at hs with hC
    refine ⟨hrun.snoc hs, fun p hp => ?_⟩
    rw [List.mem_append, List.mem_singleton] at hp
    rcases hp with hp | rfl
    · exact hall p hp
    · exact hC

end Transition
