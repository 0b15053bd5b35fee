import SwapiService.Lib.Losses
import SwapiService.QueryLedger
import SwapiService.RequestAccounting

/-!
# Unreliable delivery

The broker delivers an event once at most, and a process that dies takes its activations
with it.  So far nothing was lost but what fails.  Here anything may be: a message, a
job, an activation at any `await`.  Queries may then stay incomplete for good, but what
is stored is what could have been stored without any loss: what was known of the store
is still true of it.

## Main definitions

* `requestsOf` — the requests of a run with losses.
* `LossSafe` — what losses cannot break.

## Main results

* `safe_under_losses` — they break none of it.
-/

namespace SwapiService

open TaskPool Transition Ledgers

/-- The requests of a run with losses, with the ids drawn for their queries. -/
def requestsOf (tr : List (Sys × LossyAct Choice EnvAct)) : List (CreateQueryRequestDto × Uuid) :=
  (tr.filterMap fun p => p.2.fromOutside).flatMap EnvAct.request

/-- Requests come from outside. -/
theorem requestsIn_eq (tr : List (Sys × Act Choice EnvAct)) :
    requestsIn tr = (tr.filterMap fun p => p.2.fromOutside).flatMap EnvAct.request := by
  rw [requestsIn, issuedIn]
  induction tr with
  | nil => rfl
  | cons p tr ih =>
    obtain ⟨s, a⟩ := p
    rw [List.flatMap_cons, ih]
    cases a <;> rfl

/-- What losses cannot break, from `s` to `s'`, which the given requests led to: the store
is one the requests lead to without losses, with all of these tasks and more in flight;
what was stored is only added to; an event refers to its own row, and no two tasks work
on one row. -/
structure LossSafe (cfg : Settings) (cache : ResourceCollection)
    (requests : List (CreateQueryRequestDto × Uuid)) (s s' : Sys) : Prop where
  delayed : ∃ tr u, Run (system cfg).step (startingWith cache) tr u ∧ requestsIn tr = requests ∧
    u.store = s'.store ∧ s'.pool.Subperm u.pool
  ledger : Ledger.Extends s.store.db.ledger s'.store.db.ledger
  refers : ∀ t ∈ s'.pool, ∀ dto, t.event = some dto → Refers s'.store.db dto
  tokens : ∀ id, tokens s' id ≤ 1

/-- **Losses break nothing**, whatever is lost and when. -/
theorem safe_under_losses (cfg : Settings) (cache : ResourceCollection)
    {tr tr' : List (Sys × LossyAct Choice EnvAct)} {s s' : Sys}
    (h : Run (system cfg).lossy (startingWith cache) tr s)
    (h' : Run (system cfg).lossy s tr' s') :
    LossSafe cfg cache (requestsOf (tr ++ tr')) s s' := by
  -- Both parts of the run, with nothing lost.
  obtain ⟨tr₁, u, hrun, hinput, hsheds⟩ := (Sheds.refl (startingWith cache)).run h
  obtain ⟨tr₂, u', hrun', hinput', hsheds'⟩ := hsheds.run h'
  have hI : (discipline cfg).Inv u := Discipline.inv_of_run hrun (inv_startingWith cfg cache)
  have hI' : (discipline cfg).Inv u' := Discipline.inv_of_run hrun' hI
  refine ⟨⟨tr₁ ++ tr₂, u', hrun.append hrun', ?_, hsheds'.store, hsheds'.pool⟩, ?_, ?_, ?_⟩
  · rw [requestsIn_eq, List.filterMap_append, hinput, hinput', ← List.filterMap_append]
    rfl
  · rw [← hsheds.store, ← hsheds'.store]
    exact Ledger.extends_of_star ((ledger_refinement cfg).star hI hrun')
  · intro t ht dto hdto
    rw [← hsheds'.store]
    exact (hI'.ok t (hsheds'.pool.subset ht)).2.refers_of_event hdto
  · intro id
    have hle : tokens s' id ≤ tokens u' id := hsheds'.pool.countP_le (Task.carries id)
    have hone : tokens u' id ≤ 1 :=
      hI'.countP_le_one fun t _ ht => Task.mem_owned_of_carries ht
    exact hle.trans hone

/-- The first result is lost on its way to the cache manager, and the handler of its row
then dies. -/
theorem safe_under_losses_firstResult :
    ∃ s s' : Sys, s'.pool.length + 2 = s.pool.length ∧
      LossSafe ⟨1, "http://swapi", some⟩ .empty
        [(⟨["people/1"], some "http://localhost:3000"⟩, ⟨1⟩)] s s' := by
  have hexec : (exec (system ⟨1, "http://swapi", some⟩).lossy (startingWith .empty)
      (firstResult.map .act)).any (fun s =>
        (exec (system ⟨1, "http://swapi", some⟩).lossy s [.lose 1, .lose 1]).any fun s' =>
          s'.pool.length + 2 = s.pool.length) = true := by
    decide +kernel
  obtain ⟨tr, s, hrun, hacts, hp⟩ := exists_run_of_exec _ hexec
  obtain ⟨tr', s', hrun', hacts', hp'⟩ := exists_run_of_exec _ hp
  have hsafe := safe_under_losses _ _ hrun hrun'
  have hrequests : requestsOf (tr ++ tr')
      = (((tr ++ tr').map Prod.snd).filterMap LossyAct.fromOutside).flatMap EnvAct.request := by
    rw [requestsOf, List.filterMap_map]
    rfl
  rw [hrequests, List.map_append, hacts, hacts'] at hsafe
  exact ⟨s, s', of_decide_eq_true hp', hsafe⟩

end SwapiService
