import Mathlib.Data.List.Nodup
import Mathlib.Data.List.Pairwise
import Mathlib.Data.List.Perm.Basic
import SwapiService.Lib.Transition

/-!
# Pools of tasks over a shared store

An asynchronous system as a soup: a shared store, and a pool of *tasks*, which
are the messages in flight, the queued jobs and the suspended activations of the
handlers alike.  A step takes one task out of the pool, lets it react with the
store, and puts the tasks it turned into back; the environment may also act on
the store and throw new tasks in.  Since any task may be taken, all delivery
orders and all interleavings are runs.

## Main definitions

* `Machine`, `Config`, `Act`, `Machine.step` — the systems and their steps.
* `Outcome` — how one segment of an asynchronous function ends.
* `promiseAll` — the results of parallel calls, once all of them are there.
* `Machine.Completes` — a task runs to completion with nothing in between.
* `Machine.Ensures` — it does so whatever the choices are, and ends as it should.
* `work` — how much a pool has left to do.
* `Config.forget f` — a configuration without the tasks that `f` does not know.
* `Discipline` — an *ownership discipline*: every task owns some keys, a step
  touches only what its task owns and hands its keys on without copying them,
  and what a task asserts about the store survives steps of tasks with other
  keys.

## Main results

* `Machine.step_cases` — what one step can do.
* `Machine.step_forget` — a machine with further tasks that stutter.
* `Machine.ensures_eq` — from small steps to big ones.
* `Machine.length_le_of_run`, `Machine.exists_drained` — when every reaction brings the pool
  nearer to its end.
* `Discipline.inv_step`, `Discipline.inv_of_run` — a discipline is an invariant:
  no key is ever owned twice, and every task's assertion holds.
-/

namespace TaskPool

open Transition

variable {σ τ χ ε κ : Type*}

/-! ### Machines -/

/-- A machine: how a task reacts with the store, given the choice the world makes
for it, and how the environment acts.  Either may be disabled (`none`). -/
structure Machine (σ τ χ ε : Type*) where
  react : σ → τ → χ → Option (σ × List τ)
  env : σ → ε → Option (σ × List τ)

/-- A state of a machine: the store and the tasks in the pool. -/
structure Config (σ τ : Type*) where
  store : σ
  pool : List τ

/-- An action: the task at position `i` of the pool reacts, with the choice `c`, or
the environment acts. -/
inductive Act (χ ε : Type*)
  | run (i : ℕ) (c : χ)
  | env (e : ε)

/-- One step of a machine. -/
def Machine.step (M : Machine σ τ χ ε) (s : Config σ τ) : Act χ ε → Option (Config σ τ)
  | .run i c => s.pool[i]?.bind fun t =>
      (M.react s.store t c).map fun r => ⟨r.1, s.pool.eraseIdx i ++ r.2⟩
  | .env e => (M.env s.store e).map fun r => ⟨r.1, s.pool ++ r.2⟩

/-- A task whose reaction is enabled may run. -/
theorem Machine.step_run {M : Machine σ τ χ ε} {s : Config σ τ} {i : ℕ} {t : τ} {c : χ}
    {r : σ × List τ} (hi : s.pool[i]? = some t) (hr : M.react s.store t c = some r) :
    M.step s (.run i c) = some ⟨r.1, s.pool.eraseIdx i ++ r.2⟩ := by
  rw [step, hi, Option.bind_some, hr, Option.map_some]

/-- A task runs: it leaves the pool, and what it turned into enters. -/
structure Machine.Runs (M : Machine σ τ χ ε) (s : Config σ τ) (i : ℕ) (c : χ)
    (s' : Config σ τ) (t : τ) (rest ts : List τ) : Prop where
  get : s.pool[i]? = some t
  pool : s.pool.Perm (t :: rest)
  react : M.react s.store t c = some (s'.store, ts)
  pool' : s'.pool = rest ++ ts

/-- **What one step can do**: run one task, or act from outside. -/
theorem Machine.step_cases {M : Machine σ τ χ ε} {s s' : Config σ τ} {a : Act χ ε}
    (h : M.step s a = some s') :
    (∃ i c t rest ts, a = .run i c ∧ M.Runs s i c s' t rest ts) ∨
      ∃ e ts, a = .env e ∧ M.env s.store e = some (s'.store, ts) ∧ s'.pool = s.pool ++ ts := by
  cases a with
  | run i c =>
    obtain ⟨t, ht, h⟩ := Option.bind_eq_some_iff.mp h
    obtain ⟨r, hr, rfl⟩ := Option.map_eq_some_iff.mp h
    obtain ⟨hi, hget⟩ := List.getElem?_eq_some_iff.mp ht
    refine .inl ⟨i, c, t, s.pool.eraseIdx i, r.2, rfl, ht, ?_, hr, rfl⟩
    rw [← hget]
    exact (List.getElem_cons_eraseIdx_perm hi).symm
  | env e =>
    obtain ⟨r, hr, rfl⟩ := Option.map_eq_some_iff.mp h
    exact .inr ⟨e, r.2, rfl, hr, rfl⟩

section Runs

variable {M : Machine σ τ χ ε} {s s' : Config σ τ} {i : ℕ} {c : χ} {t : τ} {rest ts : List τ}

theorem Machine.Runs.mem (h : M.Runs s i c s' t rest ts) : t ∈ s.pool :=
  h.pool.mem_iff.mpr List.mem_cons_self

theorem Machine.Runs.mem_of_rest (h : M.Runs s i c s' t rest ts) {u : τ} (hu : u ∈ rest) :
    u ∈ s.pool :=
  h.pool.mem_iff.mpr (List.mem_cons_of_mem _ hu)

theorem Machine.Runs.mem_pool' (h : M.Runs s i c s' t rest ts) {u : τ} :
    u ∈ s'.pool ↔ u ∈ rest ∨ u ∈ ts := by
  rw [h.pool', List.mem_append]

/-- Counting over the pool before a step. -/
theorem Machine.Runs.countP_pool (h : M.Runs s i c s' t rest ts) (p : τ → Bool) :
    s.pool.countP p = (if p t then 1 else 0) + rest.countP p := by
  rw [h.pool.countP_eq, List.countP_cons, Nat.add_comm]

/-- Counting over the pool after a step. -/
theorem Machine.Runs.countP_pool' (h : M.Runs s i c s' t rest ts) (p : τ → Bool) :
    s'.pool.countP p = rest.countP p + ts.countP p := by
  rw [h.pool', List.countP_append]

/-- Counting what is not there. -/
theorem countP_eq_zero_of_forall {p : τ → Bool} {ts : List τ} (h : ∀ t ∈ ts, p t = false) :
    ts.countP p = 0 := by
  rw [List.countP_eq_zero]
  intro t ht
  rw [h t ht]
  exact Bool.false_ne_true

/-- Collecting over the pool before a step. -/
theorem Machine.Runs.flatMap_pool (h : M.Runs s i c s' t rest ts) (f : τ → List κ) :
    (s.pool.flatMap f).Perm (f t ++ rest.flatMap f) := by
  simpa using h.pool.flatMap_right f

end Runs

/-! ### Forgetting tasks -/

/-- The configuration without the tasks that `f` does not know. -/
def Config.forget {τ' : Type*} (f : τ' → Option τ) (s : Config σ τ') : Config σ τ :=
  ⟨s.store, s.pool.filterMap f⟩

/-- Taking out an element that is forgotten changes nothing. -/
theorem filterMap_eraseIdx_of_none {α β : Type*} {f : α → Option β} {l : List α} {i : ℕ} {a : α}
    (hi : l[i]? = some a) (hf : f a = none) : (l.eraseIdx i).filterMap f = l.filterMap f := by
  induction l generalizing i with
  | nil => cases hi
  | cons b l ih =>
    cases i with
    | zero =>
      obtain rfl := Option.some.inj hi
      rw [List.eraseIdx_cons_zero, List.filterMap_cons_none hf]
    | succ i =>
      rw [List.eraseIdx_cons_succ, List.filterMap_cons, List.filterMap_cons, ih hi]

/-- Taking out an element that is known takes it out of the rest as well. -/
theorem filterMap_eraseIdx_of_some {α β : Type*} {f : α → Option β} {l : List α} {i : ℕ} {a : α}
    {b : β} (hi : l[i]? = some a) (hf : f a = some b) :
    ∃ j, (l.filterMap f)[j]? = some b ∧
      (l.eraseIdx i).filterMap f = (l.filterMap f).eraseIdx j := by
  induction l generalizing i with
  | nil => cases hi
  | cons c l ih =>
    cases i with
    | zero =>
      obtain rfl := Option.some.inj hi
      refine ⟨0, ?_, ?_⟩
      · rw [List.filterMap_cons_some hf]
        rfl
      · rw [List.eraseIdx_cons_zero, List.filterMap_cons_some hf, List.eraseIdx_cons_zero]
    | succ i =>
      obtain ⟨j, hj, herase⟩ := ih hi
      cases hc : f c with
      | none =>
        refine ⟨j, ?_, ?_⟩
        · rw [List.filterMap_cons_none hc]
          exact hj
        · rw [List.eraseIdx_cons_succ, List.filterMap_cons_none hc, List.filterMap_cons_none hc]
          exact herase
      | some d =>
        refine ⟨j + 1, ?_, ?_⟩
        · rw [List.filterMap_cons_some hc]
          exact hj
        · rw [List.eraseIdx_cons_succ, List.filterMap_cons_some hc, List.filterMap_cons_some hc,
            List.eraseIdx_cons_succ, herase]

/-- **The stuttering rule.**  If the tasks that `f` knows react as those of `M`, and the
others leave the store alone and turn into others, then every step is one of `M` on what
`f` knows, or changes nothing there. -/
theorem Machine.step_forget {τ' χ' : Type*} {M' : Machine σ τ' χ' ε} {M : Machine σ τ χ ε}
    {f : τ' → Option τ} {g : χ' → χ}
    (hknown : ∀ {s t' t c s' ts'}, f t' = some t → M'.react s t' c = some (s', ts') →
      M.react s t (g c) = some (s', ts'.filterMap f))
    (hother : ∀ {s t' c s' ts'}, f t' = none → M'.react s t' c = some (s', ts') →
      s' = s ∧ ts'.filterMap f = [])
    (henv : ∀ {s e s' ts'}, M'.env s e = some (s', ts') → M.env s e = some (s', ts'.filterMap f))
    {s s' : Config σ τ'} {a : Act χ' ε} (h : M'.step s a = some s') :
    s'.forget f = s.forget f ∨ ∃ a', M.step (s.forget f) a' = some (s'.forget f) := by
  cases a with
  | run i c =>
    obtain ⟨t', ht', h⟩ := Option.bind_eq_some_iff.mp h
    obtain ⟨⟨store, ts'⟩, hr, rfl⟩ := Option.map_eq_some_iff.mp h
    cases hf : f t' with
    | none =>
      obtain ⟨rfl, hts'⟩ := hother hf hr
      refine .inl ?_
      rw [Config.forget, Config.forget, List.filterMap_append, hts', List.append_nil,
        filterMap_eraseIdx_of_none ht' hf]
    | some t =>
      obtain ⟨j, hj, herase⟩ := filterMap_eraseIdx_of_some ht' hf
      refine .inr ⟨.run j (g c), ?_⟩
      have hj' : (s.forget f).pool[j]? = some t := hj
      show M.step _ _ = some (Config.mk store ((s.pool.eraseIdx i ++ ts').filterMap f))
      rw [List.filterMap_append, herase]
      exact Machine.step_run hj' (hknown hf hr)
  | env e =>
    obtain ⟨⟨store, ts'⟩, hr, rfl⟩ := Option.map_eq_some_iff.mp h
    refine .inr ⟨.env e, ?_⟩
    show (M.env s.store e).map _ = some (Config.mk store ((s.pool ++ ts').filterMap f))
    rw [henv hr, List.filterMap_append]
    rfl

/-! ### Asynchronous functions -/

/-- How one segment of an asynchronous function ends: at its next `await`, or
with its promise settled. -/
inductive Outcome (τ : Type*)
  | suspended (t : τ)
  | resolved
  | rejected
  deriving DecidableEq, Repr

/-- What remains in the pool of an activation after a segment. -/
def Outcome.tasks {α : Type*} (f : α → τ) : Outcome α → List τ
  | .suspended t => [f t]
  | .resolved => []
  | .rejected => []

@[simp] theorem Outcome.tasks_suspended {α : Type*} (f : α → τ) (t : α) :
    (Outcome.suspended t).tasks f = [f t] := rfl

@[simp] theorem Outcome.tasks_resolved {α : Type*} (f : α → τ) :
    (Outcome.resolved : Outcome α).tasks f = [] := rfl

@[simp] theorem Outcome.tasks_rejected {α : Type*} (f : α → τ) :
    (Outcome.rejected : Outcome α).tasks f = [] := rfl

/-- What remains is the activation waiting at its next `await`, if any. -/
theorem Outcome.forall_tasks {α : Type*} {f : α → τ} {out : Outcome α} {P : τ → Prop}
    (h : ∀ t, out = .suspended t → P (f t)) : ∀ u ∈ out.tasks f, P u := by
  intro u hu
  cases out with
  | suspended t =>
    obtain rfl := List.mem_singleton.mp hu
    exact h t rfl
  | resolved => cases hu
  | rejected => cases hu

/-- Counting over what remains. -/
theorem Outcome.countP_tasks {α : Type*} {f : α → τ} {p : τ → Bool} (h : ∀ a, p (f a) = false)
    (out : Outcome α) : (out.tasks f).countP p = 0 :=
  countP_eq_zero_of_forall (Outcome.forall_tasks fun a _ => h a)

/-- The results of calls made in parallel, in the order of the calls, as soon as
every one of them has been answered. -/
def promiseAll {α : Type*} : List (Option α) → Option (List α)
  | [] => some []
  | r :: rs => r.bind fun a => (promiseAll rs).map (a :: ·)

theorem promiseAll_eq_some {α : Type*} {rs : List (Option α)} {as : List α} :
    promiseAll rs = some as ↔ rs = as.map some := by
  induction rs generalizing as with
  | nil => cases as <;> simp [promiseAll]
  | cons r rs ih =>
    cases r with
    | none => cases as <;> simp [promiseAll]
    | some a =>
      cases as with
      | nil => simp [promiseAll]
      | cons b bs => simp [promiseAll, ih, and_comm]

/-! ### Running to completion -/

/-- A task runs to completion with nothing in between, from the store `s` to the store
`s'`: all its choices meet `ok`, and each reaction but the last puts back one task. -/
inductive Machine.Completes (M : Machine σ τ χ ε) (ok : χ → Prop) : σ → τ → σ → Prop
  | last {s s' : σ} {t : τ} {c : χ} (hc : ok c) (h : M.react s t c = some (s', [])) :
      Completes M ok s t s'
  | next {s s' s'' : σ} {t t' : τ} {c : χ} (hc : ok c) (h : M.react s t c = some (s', [t']))
      (hrest : Completes M ok s' t' s'') : Completes M ok s t s''

/-- Such an execution is a run of the machine. -/
theorem Machine.Completes.reachable {M : Machine σ τ χ ε} {ok : χ → Prop} {s s' : σ} {t : τ}
    (h : M.Completes ok s t s') : Reachable M.step ⟨s, [t]⟩ ⟨s', []⟩ := by
  induction h with
  | @last s s' t c _ h =>
    have hs : M.step ⟨s, [t]⟩ (.run 0 c) = some ⟨s', []⟩ :=
      Machine.step_run (r := (s', [])) rfl h
    exact (Reachable.refl _).tail hs
  | @next s s' s'' t t' c _ h _ ih =>
    have hs : M.step ⟨s, [t]⟩ (.run 0 c) = some ⟨s', [t']⟩ :=
      Machine.step_run (r := (s', [t'])) rfl h
    exact ((Reachable.refl _).tail hs).trans ih

/-! ### Total correctness -/

/-- Run on its own from the store `s`, a task comes to its end whatever the choices are, as
long as they meet `ok`, and the store then satisfies `P`. -/
inductive Machine.Ensures (M : Machine σ τ χ ε) (ok : χ → Prop) (P : σ → Prop) : σ → τ → Prop
  | intro {s : σ} {t : τ} (hprogress : ∃ c r, ok c ∧ M.react s t c = some r)
      (hone : ∀ {c s' ts}, ok c → M.react s t c = some (s', ts) → ts.length ≤ 1)
      (hlast : ∀ {c s'}, ok c → M.react s t c = some (s', []) → P s')
      (hnext : ∀ {c s' t'}, ok c → M.react s t c = some (s', [t']) → Ensures M ok P s' t') :
      Ensures M ok P s t

section Ensures

variable {M : Machine σ τ χ ε} {ok : χ → Prop} {P : σ → Prop} {s s' : σ} {t : τ}

/-- There is such an execution. -/
theorem Machine.Ensures.exists_completes (h : M.Ensures ok P s t) :
    ∃ s', M.Completes ok s t s' := by
  induction h with
  | @intro s t hprogress hone _ _ ih =>
    obtain ⟨c, ⟨s₁, ts⟩, hc, hreact⟩ := hprogress
    cases ts with
    | nil => exact ⟨s₁, .last hc hreact⟩
    | cons t' ts =>
      obtain rfl : ts = [] := by simpa using hone hc hreact
      obtain ⟨s', hrest⟩ := ih hc hreact
      exact ⟨s', .next hc hreact hrest⟩

/-- Every such execution ends as it should. -/
theorem Machine.Ensures.of_completes (h : M.Ensures ok P s t) (hs : M.Completes ok s t s') :
    P s' := by
  induction hs with
  | last hc hreact =>
    cases h with
    | intro _ _ hlast _ => exact hlast hc hreact
  | next hc hreact _ ih =>
    cases h with
    | intro _ _ _ hnext => exact ih (hnext hc hreact)

theorem Machine.Ensures.mono {Q : σ → Prop} (h : M.Ensures ok P s t) (hPQ : ∀ s, P s → Q s) :
    M.Ensures ok Q s t := by
  induction h with
  | intro hprogress hone hlast _ ih =>
    exact .intro hprogress hone (fun hc hreact => hPQ _ (hlast hc hreact)) ih

/-- If there is one store it can end in, only that store matters. -/
theorem Machine.Ensures.iff_of_eq (h : M.Ensures ok (· = s') s t) : M.Ensures ok P s t ↔ P s' := by
  constructor
  · intro hP
    obtain ⟨s'', hs⟩ := h.exists_completes
    obtain rfl := h.of_completes hs
    exact hP.of_completes hs
  · rintro hP
    exact h.mono fun _ hs => hs ▸ hP

/-- **The big step rule.**  Suppose that a task always has a reaction, and that each one
ends it or leads to a task of a lesser rank with the same outcome `f`.  Then it ends in
that outcome. -/
theorem Machine.ensures_eq {f : σ → τ → σ} {ρ : Type*} {r : ρ → ρ → Prop} (hwf : WellFounded r)
    (rank : τ → ρ) (hprogress : ∀ s t, ∃ c r, ok c ∧ M.react s t c = some r)
    (hreact : ∀ {s t c s' ts}, ok c → M.react s t c = some (s', ts) →
      ts = [] ∧ f s t = s' ∨ ∃ t', ts = [t'] ∧ f s t = f s' t' ∧ r (rank t') (rank t)) (s : σ)
    (t : τ) : M.Ensures ok (· = f s t) s t := by
  -- On the rank, for all stores: the reactions change the store as they like.
  induction hrank : rank t using hwf.induction generalizing s t with
  | _ k ih =>
    refine .intro (hprogress s t) ?_ ?_ ?_
    · intro c s' ts hc h
      rcases hreact hc h with ⟨rfl, -⟩ | ⟨t', rfl, -⟩
      · exact Nat.zero_le 1
      · exact Nat.le_refl 1
    · intro c s' hc h
      rcases hreact hc h with ⟨-, hf⟩ | ⟨t', hts, -⟩
      · exact hf.symm
      · cases hts
    · intro c s' t' hc h
      rcases hreact hc h with ⟨hts, -⟩ | ⟨t'', hts, hf, hlt⟩
      · cases hts
      · obtain rfl := List.singleton_injective hts
        rw [hf]
        exact ih (rank t') (hrank ▸ hlt) s' t' rfl

end Ensures

/-! ### Draining the pool -/

section Draining

variable {M : Machine σ τ χ ε} {rank : τ → ℕ} {s s' : Config σ τ}

/-- How much a list of tasks has left to do. -/
def work (rank : τ → ℕ) : List τ → ℕ
  | [] => 0
  | t :: ts => rank t + work rank ts

theorem work_append (ts us : List τ) : work rank (ts ++ us) = work rank ts + work rank us := by
  induction ts with
  | nil => exact (Nat.zero_add _).symm
  | cons t ts ih =>
    show rank t + work rank (ts ++ us) = rank t + work rank ts + work rank us
    rw [ih, Nat.add_assoc]

theorem work_perm {ts us : List τ} (h : ts.Perm us) : work rank ts = work rank us := by
  induction h with
  | nil => rfl
  | cons t _ ih => exact congrArg (rank t + ·) ih
  | swap t u ts => exact Nat.add_left_comm _ _ _
  | trans _ _ ih₁ ih₂ => exact ih₁.trans ih₂

/-- A reaction to tasks with less to do leaves less to do. -/
theorem Machine.Runs.work_lt {i : ℕ} {c : χ} {t : τ} {rest ts : List τ}
    (h : M.Runs s i c s' t rest ts) (hlt : work rank ts < rank t) :
    work rank s'.pool < work rank s.pool := by
  have hpool : work rank s.pool = rank t + work rank rest := work_perm h.pool
  rw [h.pool', work_append, hpool]
  omega

variable [IsEmpty ε]

/-- **Runs come to an end**, if nothing comes from outside. -/
theorem Machine.length_le_of_run {s₀ : Config σ τ} {tr : List (Config σ τ × Act χ ε)}
    (hlt : ∀ {s t c s' ts}, M.react s t c = some (s', ts) → work rank ts < rank t)
    (h : Run M.step s₀ tr s) : tr.length + work rank s.pool ≤ work rank s₀.pool := by
  induction h with
  | nil => simp
  | @snoc tr s s' a _ hs ih =>
    rcases Machine.step_cases hs with ⟨i, c, t, rest, ts, -, hr⟩ | ⟨e, -⟩
    · have hwork := hr.work_lt (hlt hr.react)
      rw [List.length_append, List.length_singleton]
      omega
    · exact isEmptyElim e

/-- **The pool can be drained**, if every task has a reaction. -/
theorem Machine.exists_drained
    (hlt : ∀ {s t c s' ts}, M.react s t c = some (s', ts) → work rank ts < rank t)
    (hprogress : ∀ s t, ∃ c r, M.react s t c = some r) (s : Config σ τ) :
    ∃ tr s', Run M.step s tr s' ∧ s'.pool = [] := by
  -- On the work that is left.
  induction hwork : work rank s.pool using Nat.strongRecOn generalizing s with
  | _ n ih =>
    cases hpool : s.pool with
    | nil => exact ⟨[], s, .nil, hpool⟩
    | cons t pool =>
      obtain ⟨c, r, hr⟩ := hprogress s.store t
      have hget : s.pool[0]? = some t := by rw [hpool]; rfl
      obtain ⟨s₁, hs⟩ : ∃ s₁, M.step s (.run 0 c) = some s₁ := ⟨_, Machine.step_run hget hr⟩
      have hfirst : Run M.step s [(s, .run 0 c)] s₁ := Run.nil.snoc hs
      have hlen := Machine.length_le_of_run hlt hfirst
      rw [List.length_singleton] at hlen
      obtain ⟨tr, s', hrest, hdone⟩ := ih (work rank s₁.pool) (by omega) s₁ rfl
      exact ⟨_, s', hfirst.append hrest, hdone⟩

end Draining

/-! ### Ownership -/

/-- An ownership discipline for a machine.  `Good` is an invariant of the store
alone, `Ok` what a task asserts about the store, and `used` marks the keys that
have ever been handed out. -/
structure Discipline (M : Machine σ τ χ ε) (κ : Type*) where
  /-- The keys a task owns. -/
  owned : τ → List κ
  /-- The keys handed out so far. -/
  used : σ → κ → Prop
  /-- The invariant of the store. -/
  Good : σ → Prop
  /-- What a task asserts about the store. -/
  Ok : σ → τ → Prop
  /-- Only keys that were handed out are owned. -/
  ok_used : ∀ {s t k}, Ok s t → k ∈ owned t → used s k
  /-- A reaction keeps the store's invariant. -/
  react_good : ∀ {s t c s' ts}, Good s → Ok s t → (owned t).Nodup →
    M.react s t c = some (s', ts) → Good s'
  /-- A reaction establishes the assertions of the tasks it puts back. -/
  react_ok : ∀ {s t c s' ts}, Good s → Ok s t → (owned t).Nodup →
    M.react s t c = some (s', ts) → ∀ u ∈ ts, Ok s' u
  /-- A reaction hands keys on without copying them. -/
  react_owned : ∀ {s t c s' ts}, Ok s t → (owned t).Nodup → M.react s t c = some (s', ts) →
    (ts.flatMap owned).Nodup ∧ ts.flatMap owned ⊆ owned t
  /-- A reaction leaves what the tasks with other keys assert alone. -/
  react_frame : ∀ {s t c s' ts u}, Good s → Ok s t → (owned t).Nodup →
    M.react s t c = some (s', ts) → Ok s u → (owned t).Disjoint (owned u) → Ok s' u
  /-- The environment keeps the store's invariant. -/
  env_good : ∀ {s e s' ts}, Good s → M.env s e = some (s', ts) → Good s'
  /-- The environment establishes the assertions of the tasks it starts. -/
  env_ok : ∀ {s e s' ts}, Good s → M.env s e = some (s', ts) → ∀ u ∈ ts, Ok s' u
  /-- The environment gives fresh keys to the tasks it starts. -/
  env_owned : ∀ {s e s' ts}, M.env s e = some (s', ts) →
    (ts.flatMap owned).Nodup ∧ ∀ k ∈ ts.flatMap owned, ¬ used s k
  /-- The environment leaves what the tasks assert alone. -/
  env_frame : ∀ {s e s' ts u}, Good s → M.env s e = some (s', ts) → Ok s u → Ok s' u

/-- The invariant of a discipline. -/
structure Discipline.Inv {M : Machine σ τ χ ε} (D : Discipline M κ) (s : Config σ τ) : Prop where
  good : D.Good s.store
  ok : ∀ t ∈ s.pool, D.Ok s.store t
  nodup : (s.pool.flatMap D.owned).Nodup

section Discipline

variable {M : Machine σ τ χ ε} {D : Discipline M κ} {s s' : Config σ τ}

/-- The keys of a running task are its own alone. -/
theorem Discipline.Inv.owned_runs (h : D.Inv s) {i : ℕ} {c : χ} {t : τ} {rest ts : List τ}
    (hr : M.Runs s i c s' t rest ts) :
    (D.owned t).Nodup ∧ (rest.flatMap D.owned).Nodup ∧
      (D.owned t).Disjoint (rest.flatMap D.owned) := by
  have hnd := (hr.flatMap_pool D.owned).nodup_iff.mp h.nodup
  rw [List.nodup_append'] at hnd
  exact hnd

/-- No task of the pool owns a key twice. -/
theorem Discipline.Inv.nodup_owned (h : D.Inv s) {t : τ} (ht : t ∈ s.pool) :
    (D.owned t).Nodup :=
  (List.nodup_flatMap.mp h.nodup).1 t ht

/-- The task that owns a key is the only one. -/
theorem Discipline.Inv.eq_of_owned (h : D.Inv s) {t u : τ} (ht : t ∈ s.pool) (hu : u ∈ s.pool)
    {k : κ} (hkt : k ∈ D.owned t) (hku : k ∈ D.owned u) : t = u := by
  by_contra hne
  have hpair := (List.nodup_flatMap.mp h.nodup).2
  have hsymm : Std.Symm (Function.onFun List.Disjoint D.owned) :=
    ⟨fun _ _ hdis _ hk hk' => hdis hk' hk⟩
  exact hpair.forall ht hu hne hkt hku

/-- Every key that is owned has been handed out. -/
theorem Discipline.Inv.used_of_owned (h : D.Inv s) {k : κ} (hk : k ∈ s.pool.flatMap D.owned) :
    D.used s.store k := by
  obtain ⟨t, ht, hkt⟩ := List.mem_flatMap.mp hk
  exact D.ok_used (h.ok t ht) hkt

/-- Of the tasks that own a key there is at most one. -/
theorem Discipline.Inv.countP_le_one (h : D.Inv s) {k : κ} {p : τ → Bool}
    (hp : ∀ t ∈ s.pool, p t = true → k ∈ D.owned t) : s.pool.countP p ≤ 1 := by
  obtain ⟨-, -, hnd⟩ := h
  generalize s.pool = pool at hnd hp ⊢
  induction pool with
  | nil => simp
  | cons t ts ih =>
    rw [List.flatMap_cons, List.nodup_append'] at hnd
    obtain ⟨-, hrest, hdis⟩ := hnd
    have hts := ih hrest fun u hu => hp u (List.mem_cons_of_mem _ hu)
    by_cases ht : p t = true
    · -- The key is owned by `t`, hence by none of the rest.
      have hzero : ts.countP p = 0 := by
        rw [List.countP_eq_zero]
        intro u hu hpu
        refine hdis (hp t List.mem_cons_self ht) (List.mem_flatMap.mpr ⟨u, hu, ?_⟩)
        exact hp u (List.mem_cons_of_mem _ hu) hpu
      rw [List.countP_cons_of_pos ht]
      omega
    · rwa [List.countP_cons_of_neg ht]

/-- **One step keeps the discipline.** -/
theorem Discipline.inv_step (h : D.Inv s) {a : Act χ ε} (hs : M.step s a = some s') :
    D.Inv s' := by
  rcases Machine.step_cases hs with ⟨i, c, t, rest, ts, -, hr⟩ | ⟨e, ts, -, henv, hpool⟩
  · -- A task runs: its own keys are disjoint from those of the rest.
    have hok := h.ok t hr.mem
    obtain ⟨hnd, hrest, hdis⟩ := h.owned_runs hr
    obtain ⟨hnew, hsub⟩ := D.react_owned hok hnd hr.react
    refine ⟨D.react_good h.good hok hnd hr.react, ?_, ?_⟩
    · intro u hu
      rcases hr.mem_pool'.mp hu with hu | hu
      · refine D.react_frame h.good hok hnd hr.react (h.ok u (hr.mem_of_rest hu)) ?_
        exact fun k hkt hku => hdis hkt (List.mem_flatMap.mpr ⟨u, hu, hku⟩)
      · exact D.react_ok h.good hok hnd hr.react u hu
    · rw [hr.pool', List.flatMap_append, List.nodup_append']
      exact ⟨hrest, hnew, fun k hk hk' => hdis (hsub hk') hk⟩
  · -- The environment acts: the new keys are fresh.
    obtain ⟨hnew, hfresh⟩ := D.env_owned henv
    refine ⟨D.env_good h.good henv, ?_, ?_⟩
    · intro u hu
      rw [hpool, List.mem_append] at hu
      rcases hu with hu | hu
      · exact D.env_frame h.good henv (h.ok u hu)
      · exact D.env_ok h.good henv u hu
    · rw [hpool, List.flatMap_append, List.nodup_append']
      exact ⟨h.nodup, hnew, fun k hk hk' => hfresh k hk' (h.used_of_owned hk)⟩

/-- **A discipline is an invariant of every run.** -/
theorem Discipline.inv_of_run {s₀ : Config σ τ} {tr : List (Config σ τ × Act χ ε)}
    (h : Run M.step s₀ tr s) (h₀ : D.Inv s₀) : D.Inv s :=
  h.invariant h₀ fun hI hs => D.inv_step hI hs

end Discipline

end TaskPool
