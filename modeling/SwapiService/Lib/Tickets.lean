import Mathlib.Data.List.Perm.Subperm
import SwapiService.Lib.TaskPool

/-!
# Tickets

A bound on what a machine does, given what comes in from outside.  Every action of the
environment issues some tickets; the tasks in the pool carry them; and what the store
has recorded took tickets to do.  If no reaction multiplies tickets, what has been
recorded at the end of a run is covered by the tickets that were issued in it, counted
with their multiplicities; and if no reaction of the run loses one, and the pool no
longer carries any, nothing that was issued is missing.

## Main definitions

* `Tickets M Ok β` — tickets of type `β` for a machine whose tasks meet `Ok`.
* `issuedIn issued tr` — the tickets issued in a run.

## Main results

* `Tickets.subperm_of_run` — no ticket is spent that was not issued.
* `Tickets.perm_of_run` — none is lost, if no reaction loses one.
-/

namespace TaskPool

open Transition

variable {σ τ χ ε β : Type*}

/-- The images of a part are a part of the images. -/
theorem subperm_map {α : Type*} (f : α → β) {l l' : List α} (h : l.Subperm l') :
    (l.map f).Subperm (l'.map f) := by
  obtain ⟨k, hperm, hsub⟩ := h
  exact ⟨k.map f, hperm.map f, hsub.map f⟩

/-- What remains of an activation that carries nothing. -/
theorem Outcome.flatMap_tasks {α : Type*} {f : α → τ} {g : τ → List β} (h : ∀ a, g (f a) = [])
    (out : Outcome α) : (out.tasks f).flatMap g = [] := by
  rw [List.flatMap_eq_nil_iff]
  exact Outcome.forall_tasks fun a _ => h a

/-- Tickets for a machine: where they are, and that steps do not multiply them. -/
structure Tickets (M : Machine σ τ χ ε) (Ok : σ → τ → Prop) (β : Type*) where
  /-- The tickets a task carries. -/
  carried : τ → List β
  /-- The tickets spent on what the store has recorded. -/
  spent : σ → List β
  /-- The tickets an action of the environment issues. -/
  issued : ε → List β
  /-- A reaction spends the tickets of its task, or hands them on. -/
  react : ∀ {s t c s' ts}, Ok s t → M.react s t c = some (s', ts) →
    (spent s' ++ ts.flatMap carried).Subperm (spent s ++ carried t)
  /-- The environment hands over the tickets it issues. -/
  env : ∀ {s e s' ts}, M.env s e = some (s', ts) →
    (spent s' ++ ts.flatMap carried).Perm (spent s ++ issued e)

/-- The tickets issued in a run. -/
def issuedIn (issued : ε → List β) (tr : List (Config σ τ × Act χ ε)) : List β :=
  tr.flatMap fun p =>
    match p.2 with
    | .run _ _ => []
    | .env e => issued e

@[simp] theorem issuedIn_nil (issued : ε → List β) :
    issuedIn issued ([] : List (Config σ τ × Act χ ε)) = [] := rfl

theorem issuedIn_run (issued : ε → List β) (tr : List (Config σ τ × Act χ ε)) (s : Config σ τ)
    (i : ℕ) (c : χ) : issuedIn issued (tr ++ [(s, .run i c)]) = issuedIn issued tr := by
  rw [issuedIn, List.flatMap_append]
  exact List.append_nil _

theorem issuedIn_env (issued : ε → List β) (tr : List (Config σ τ × Act χ ε)) (s : Config σ τ)
    (e : ε) : issuedIn issued (tr ++ [(s, .env e)]) = issuedIn issued tr ++ issued e := by
  rw [issuedIn, List.flatMap_append, List.flatMap_singleton]
  rfl

section Tickets

variable {M : Machine σ τ χ ε} {Ok : σ → τ → Prop} {s s' : Config σ τ}

/-- All tickets of a configuration: those spent and those carried. -/
def Tickets.all (T : Tickets M Ok β) (s : Config σ τ) : List β :=
  T.spent s.store ++ s.pool.flatMap T.carried

/-- The tickets after a reaction: those it had its hands on, and the rest. -/
theorem Tickets.all_runs (T : Tickets M Ok β) {i : ℕ} {c : χ} {t : τ} {rest ts : List τ}
    (hr : M.Runs s i c s' t rest ts) :
    (T.all s').Perm ((T.spent s'.store ++ ts.flatMap T.carried) ++ rest.flatMap T.carried) ∧
      (T.all s).Perm ((T.spent s.store ++ T.carried t) ++ rest.flatMap T.carried) := by
  rw [List.append_assoc, List.append_assoc]
  constructor
  · rw [all, hr.pool', List.flatMap_append]
    exact List.perm_append_comm.append_left _
  · exact (hr.flatMap_pool T.carried).append_left _

/-- The tickets after an action of the environment. -/
theorem Tickets.all_env (T : Tickets M Ok β) {e : ε} {ts : List τ}
    (henv : M.env s.store e = some (s'.store, ts)) (hpool : s'.pool = s.pool ++ ts) :
    (T.all s').Perm (T.all s ++ T.issued e) := by
  have hsplit : (T.all s').Perm
      ((T.spent s'.store ++ ts.flatMap T.carried) ++ s.pool.flatMap T.carried) := by
    rw [all, hpool, List.flatMap_append, List.append_assoc]
    exact List.perm_append_comm.append_left _
  refine hsplit.trans (((T.env henv).append_right _).trans ?_)
  rw [all, List.append_assoc, List.append_assoc]
  exact List.perm_append_comm.append_left _

/-- **No ticket is spent that was not issued.** -/
theorem Tickets.subperm_of_run (T : Tickets M Ok β) {s₀ : Config σ τ}
    {tr : List (Config σ τ × Act χ ε)}
    (hok : ∀ {tr t}, Run M.step s₀ tr t → ∀ u ∈ t.pool, Ok t.store u) (h : Run M.step s₀ tr s) :
    (T.all s).Subperm (T.all s₀ ++ issuedIn T.issued tr) := by
  induction h with
  | nil => simpa using List.Subperm.refl (T.all s₀)
  | @snoc tr s s' a h hs ih =>
    rcases Machine.step_cases hs with ⟨i, c, t, rest, ts, rfl, hr⟩ | ⟨e, ts, rfl, henv, hpool⟩
    · obtain ⟨hafter, hbefore⟩ := T.all_runs hr
      have hreact := T.react (hok h t hr.mem) hr.react
      have hstep : (T.all s').Subperm (T.all s) :=
        hafter.subperm.trans ((hreact.append (.refl _)).trans hbefore.symm.subperm)
      rw [issuedIn_run]
      exact hstep.trans ih
    · rw [issuedIn_env, ← List.append_assoc]
      exact (T.all_env henv hpool).subperm.trans (ih.append (.refl _))

/-- **None is lost**, if every reaction of the run meets a condition under which it loses
none. -/
theorem Tickets.perm_of_run (T : Tickets M Ok β) {C : σ → τ → χ → Prop}
    (hreact : ∀ {s t c s' ts}, Ok s t → C s t c → M.react s t c = some (s', ts) →
      (T.spent s' ++ ts.flatMap T.carried).Perm (T.spent s ++ T.carried t))
    {s₀ : Config σ τ} {tr : List (Config σ τ × Act χ ε)}
    (hok : ∀ {tr t}, Run M.step s₀ tr t → ∀ u ∈ t.pool, Ok t.store u) (h : Run M.step s₀ tr s)
    (hC : ∀ p ∈ tr, ∀ i c t, p.2 = .run i c → p.1.pool[i]? = some t → C p.1.store t c) :
    (T.all s).Perm (T.all s₀ ++ issuedIn T.issued tr) := by
  induction h with
  | nil => simp
  | @snoc tr s s' a h hs ih =>
    have ih := ih fun p hp => hC p (List.mem_append_left _ hp)
    rcases Machine.step_cases hs with ⟨i, c, t, rest, ts, rfl, hr⟩ | ⟨e, ts, rfl, henv, hpool⟩
    · obtain ⟨hafter, hbefore⟩ := T.all_runs hr
      have hlast : C s.store t c := hC (s, .run i c) (by simp) i c t rfl hr.get
      have hstep := hreact (hok h t hr.mem) hlast hr.react
      rw [issuedIn_run]
      exact hafter.trans ((hstep.append_right _).trans (hbefore.symm.trans ih))
    · rw [issuedIn_env, ← List.append_assoc]
      exact (T.all_env henv hpool).trans (ih.append_right _)

end Tickets

end TaskPool
