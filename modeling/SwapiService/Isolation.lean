import SwapiService.Lib.History
import SwapiService.Scheduling

/-!
# Queries are isolated

All queries live in the same two tables, the saves write whole entities that were read
some awaits earlier, and the cache is shared.  A client of one query notices nothing of
the others all the same: what a poll returns, which callbacks are sent and what was
answered at its creation is changed by the activations of that query only.

## Main definitions

* `Task.worksOn` — the activations of a query.
* `Store.about` — all that is said about a query to its client.

## Main results

* `Reacts.about_eq` — other activations do not change it.
* `queries_isolated` — nor do whole runs of them.
-/

namespace SwapiService

open TaskPool Transition

/-- The task is an activation for the query: its creation, or a handler of one of its
results. -/
def Task.worksOn (queryId : Uuid) : Task → Bool
  | .creation t => t.query.id = queryId
  | .handler t => t.dto.queryId = queryId
  | _ => false

/-- What the client of a query is told: what a poll returns now, the callbacks sent, and
the responses to its creation. -/
def Store.about (queryId : Uuid) (s : Store) :
    QueryDto × List Notification × List CreateQueryResponseDto :=
  (fetchQueryResultsAsync s.db queryId, s.posts.filter fun p => p.body.id = .uuid queryId,
    s.created.filter fun r => r.id = .uuid queryId)

/-! ### Saves of other queries -/

/-- Removing an entry that is filtered out. -/
theorem filter_kerase {α β : Type} [DecidableEq α] {p : (Σ _ : α, β) → Bool} {k : α}
    {l : List (Σ _ : α, β)} (h : ∀ v ∈ l.dlookup k, p ⟨k, v⟩ = false) :
    (l.kerase k).filter p = l.filter p := by
  induction l with
  | nil => rfl
  | cons e l ih =>
    obtain ⟨k', v⟩ := e
    by_cases hk : k = k'
    · subst hk
      have hout : p ⟨k, v⟩ = false := h v (List.dlookup_cons_eq l k v)
      have hrest : List.kerase k (⟨k, v⟩ :: l) = l := List.kerase_cons_eq rfl
      rw [hrest, List.filter_cons_of_neg (by simp [hout])]
    · rw [List.dlookup_cons_ne l ⟨k', v⟩ hk] at h
      rw [List.kerase_cons_ne hk, List.filter_cons, List.filter_cons, ih h]

section Saves

variable {db db' : Database} {queryId : Uuid}

/-- Writing a row of another query. -/
theorem Database.subqueriesOf_insert {id : Uuid} {row : SubqueryRow} (hrow : row.queryId ≠ queryId)
    (h : ∀ old, db.subqueries.lookup id = some old → old.queryId ≠ queryId) :
    (⟨db.queries, db.subqueries.insert id row⟩ : Database).subqueriesOf queryId
      = db.subqueriesOf queryId := by
  rw [subqueriesOf, subqueriesOf, AList.entries_insert,
    List.filter_cons_of_neg (by simpa using hrow), filter_kerase]
  intro old hold
  exact decide_eq_false (h old hold)

/-- Saving the rows of another query. -/
theorem Database.subqueriesOf_saveSubqueries {other : Uuid} {es : List SubqueryEntity}
    (hother : other ≠ queryId) (hq : ∀ e ∈ es, e.query = some other)
    (h : ∀ e ∈ es, ∀ old, db.subqueries.lookup e.id = some old → old.queryId ≠ queryId)
    (hsave : db.saveSubqueries es = some db') :
    db'.subqueriesOf queryId = db.subqueriesOf queryId := by
  induction es generalizing db with
  | nil =>
    obtain rfl := Option.some.inj hsave
    rfl
  | cons e es ih =>
    rw [saveSubqueries, List.foldlM_cons] at hsave
    obtain ⟨db₁, hfirst, hrest⟩ := Option.bind_eq_some_iff.mp hsave
    have hpath : storable e.path = true :=
      storable_of_saveSubquery (hq e List.mem_cons_self) hfirst
    have hmem : other ∈ db.queries := by
      by_contra hno
      simp only [saveSubquery, hq e List.mem_cons_self, hno, false_and, if_false] at hfirst
      cases hfirst
    rw [saveSubquery_of_query (hq e List.mem_cons_self) hmem hpath] at hfirst
    obtain rfl := Option.some.inj hfirst
    rw [ih (fun e' he' => hq e' (List.mem_cons_of_mem _ he')) ?_ hrest,
      subqueriesOf_insert hother (h e List.mem_cons_self)]
    intro e' he' old hold
    by_cases hid : e'.id = e.id
    · rw [hid, AList.lookup_insert] at hold
      obtain rfl := Option.some.inj hold
      exact hother
    · rw [AList.lookup_insert_ne hid] at hold
      exact h e' (List.mem_cons_of_mem _ he') old hold

/-- What a poll returns comes from the row of the query and from its subqueries. -/
theorem fetchQueryResultsAsync_congr
    (hrow : db'.queries.lookup queryId = db.queries.lookup queryId)
    (hsubs : db'.subqueriesOf queryId = db.subqueriesOf queryId) :
    fetchQueryResultsAsync db' queryId = fetchQueryResultsAsync db queryId := by
  have hfind : db'.findQuery queryId = db.findQuery queryId := by
    rw [Database.findQuery, Database.findQuery, hrow, hsubs]
  rw [fetchQueryResultsAsync, fetchQueryResultsAsync, hfind]

/-- Saving another query. -/
theorem fetchQueryResultsAsync_saveQuery {query : QueryEntity} (h : query.id ≠ queryId) :
    fetchQueryResultsAsync (db.saveQuery query) queryId = fetchQueryResultsAsync db queryId :=
  fetchQueryResultsAsync_congr (Database.lookup_saveQuery_ne db h.symm) rfl

end Saves

/-! ### Activations of other queries -/

section Reactions

variable {cfg : Settings} {s s' : Store} {t : Task} {c : Choice} {ts : List Task} {queryId : Uuid}

/-- The parts of what is told. -/
theorem Effect.about_eq {α : Type} {e : Effect α}
    (hpoll : fetchQueryResultsAsync e.db queryId = fetchQueryResultsAsync s.db queryId)
    (hposts : ∀ p ∈ e.posts, p.body.id ≠ .uuid queryId)
    (hcreated : ∀ r ∈ e.responses, r.id ≠ .uuid queryId) :
    (e.store s).about queryId = s.about queryId := by
  have hposts' : e.posts.filter (fun p => p.body.id = .uuid queryId) = [] :=
    List.filter_eq_nil_iff.mpr fun p hp => by simpa using hposts p hp
  have hcreated' : e.responses.filter (fun r => r.id = .uuid queryId) = [] :=
    List.filter_eq_nil_iff.mpr fun r hr => by simpa using hcreated r hr
  rw [Store.about, Store.about, Effect.store, List.filter_append, List.filter_append, hpoll,
    hposts', hcreated', List.append_nil, List.append_nil]

/-- The creation of another query. -/
theorem Creation.about_eq {t : Creation} {e : Effect Creation} (hok : t.Ok s.db)
    (hnd : t.owned.Nodup) (hother : t.query.id ≠ queryId)
    (h : Creation.Fires s.db s.cache t.query t.phase c e) :
    (e.store s).about queryId = s.about queryId := by
  obtain ⟨query, phase⟩ := t
  cases h with
  | hit => exact Effect.about_eq rfl (by simp) (by simp)
  | savedQuery =>
    exact Effect.about_eq (fetchQueryResultsAsync_saveQuery hother) (by simp) (by simp)
  | savedSubqueries db' hsave =>
    obtain ⟨hqueries, -, -⟩ := hok.saved hnd hsave
    refine Effect.about_eq (fetchQueryResultsAsync_congr (by rw [hqueries]) ?_) (by simp) ?_
    · -- Its rows are new, so none of them was one of the query's.
      refine Database.subqueriesOf_saveSubqueries hother hok.query (fun q hq old hold => ?_) hsave
      exact absurd (Database.mem_of_lookup hold) (hok.fresh q.id (Creation.id_mem_owned hq))
    · intro r hr hid
      obtain rfl := List.mem_singleton.mp hr
      exact hother (ResponseId.uuid.inj hid)
  | _ => exact Effect.about_eq rfl (by simp) (by simp)

/-- A handler of a result of another query. -/
theorem Handler.about_eq {t : Handler} {e : Effect Handler} (hok : t.Ok s.db)
    (hother : t.dto.queryId ≠ queryId) (h : Handler.Fires s.db s.cache t.dto t.phase c e) :
    (e.store s).about queryId = s.about queryId := by
  obtain ⟨dto, phase⟩ := t
  cases h with
  | savedQuery subquery query cached =>
    -- The query it saves is the one its event names.
    obtain ⟨-, -, ⟨hid, -⟩, -⟩ := hok
    have hne : (updatedQuery dto query cached).id ≠ queryId := fun heq =>
      hother (hid.symm.trans heq)
    exact Effect.about_eq (fetchQueryResultsAsync_saveQuery hne) (by simp) (by simp)
  | savedSubquery subquery updated latest db' hsave =>
    obtain ⟨⟨row, hrow, -, hq, -⟩, hsub, ⟨hid, -⟩, hlatest⟩ := hok
    rw [hsub, Database.saveSubquery_of_row rfl hrow] at hsave
    obtain rfl := Option.some.inj hsave
    have hne : row.queryId ≠ queryId := fun heq => hother (hq.symm.trans heq)
    refine Effect.about_eq (fetchQueryResultsAsync_congr rfl ?_) (fun p hp heq => ?_) (by simp)
    · refine Database.subqueriesOf_insert hne fun old hold => ?_
      obtain rfl := Option.some.inj (hrow.symm.trans hold)
      exact hne
    · rw [body_of_mem_notifications hp, hlatest] at heq
      exact hother (hid.symm.trans (ResponseId.uuid.inj heq))
  | _ => exact Effect.about_eq rfl (by simp) (by simp)

/-- **Activations of other queries say nothing about a query.** -/
theorem Reacts.about_eq (hok : t.Asserts s.db) (hnd : t.owned.Nodup)
    (hother : t.worksOn queryId = false) (h : Reacts cfg s t c s' ts) :
    s'.about queryId = s.about queryId := by
  cases h with
  | creation h => exact Creation.about_eq hok hnd (of_decide_eq_false hother) h
  | handler h => exact Handler.about_eq hok.2 (of_decide_eq_false hother) h
  | _ => rfl

/-- Nor does anything from outside. -/
theorem Acts.about_eq {e : EnvAct} (h : Acts s e s' ts) : s'.about queryId = s.about queryId := by
  cases h with
  | _ => rfl

end Reactions

/-- **Queries are isolated.**  In a run that starts in any reachable state, however many
other queries are created, worked on and answered in it, and whatever fails: as long as no
activation of a query reacts, a poll for it returns what it returned before, and neither
a callback nor a response is about it. -/
theorem queries_isolated {cfg : Settings} {cache : ResourceCollection} {s s' : Sys}
    {tr : List (Sys × Act Choice EnvAct)}
    (h : Reachable (system cfg).step (startingWith cache) s) (hrun : Run (system cfg).step s tr s')
    {queryId : Uuid} (hother : ∀ r ∈ reactions tr, r.task.worksOn queryId = false) :
    s'.store.about queryId = s.store.about queryId := by
  induction hrun with
  | nil => rfl
  | @snoc tr t t' a hrun hs ih =>
    have hI : (discipline cfg).Inv t :=
      (h.trans ⟨tr, hrun⟩).invariant (inv_startingWith cfg cache) fun hI hs =>
        Discipline.inv_step hI hs
    rcases system_step_cases hs with ⟨i, c, u, rest, ts, rfl, hr, hreacts⟩ | ⟨e, ts, rfl, hacts, -⟩
    · rw [reactions_run hr, List.forall_mem_append] at hother
      obtain ⟨hbefore, hlast⟩ := hother
      have hworks := hlast _ List.mem_cons_self
      rw [hreacts.about_eq (hI.ok u hr.mem).2 (hI.nodup_owned hr.mem) hworks, ih hbefore]
    · rw [reactions_env] at hother
      rw [hacts.about_eq, ih hother]

/-- While the only subquery of a query waits in its event, another query is created,
fetched and completed. -/
def anotherQuery : List (Act Choice EnvAct) :=
  [.env (.create ⟨["films/1"], some "http://localhost:3000"⟩ [⟨4⟩] ⟨5⟩), .run 1 (.read 0),
    .run 1 .proceed, .run 1 .proceed, .run 1 .proceed, .run 1 .proceed, .run 1 .proceed,
    .run 1 .proceed, .run 1 .proceed, .run 2 .proceed, .run 2 (.body (.structured "\x7b\x7d")),
    .run 2 .proceed, .run 3 .proceed, .run 3 .proceed, .run 3 (.read 0), .run 3 .proceed,
    .run 3 .proceed, .run 3 .proceed]

theorem queries_isolated_anotherQuery :
    ∃ s tr s', Reachable (system ⟨1, "http://swapi", some⟩).step (startingWith .empty) s ∧
      Run (system ⟨1, "http://swapi", some⟩).step s tr s' ∧ tr.map Prod.snd = anotherQuery ∧
      s'.store.posts.length = 1 ∧ s'.store.about ⟨1⟩ = s.store.about ⟨1⟩ := by
  have hexec : (exec (system ⟨1, "http://swapi", some⟩).step (startingWith .empty)
      (upToLastSave "people/1" ++ [.run 0 .proceed])).any (fun s =>
        (execTrace (system ⟨1, "http://swapi", some⟩).step s anotherQuery).any fun p =>
          p.2.store.posts.length = 1 ∧
            (reactions p.1).all fun r => r.task.worksOn ⟨1⟩ = false) = true := by
    decide +kernel
  obtain ⟨s, hreach, hexec'⟩ := exists_reachable_of_exec _ hexec
  obtain ⟨tr, s', hrun, htr, hp⟩ := exists_run_of_execTrace _ hexec'
  obtain ⟨hposts, hall⟩ := of_decide_eq_true hp
  have hother : ∀ r ∈ reactions tr, r.task.worksOn ⟨1⟩ = false := fun r hr =>
    of_decide_eq_true (List.all_eq_true.mp hall r hr)
  exact ⟨s, tr, s', hreach, hrun, htr, hposts, queries_isolated hreach hrun hother⟩

end SwapiService
