import SwapiService.Ownership

/-!
# What is in flight

Two consequences of the ownership discipline for what is in flight.  Every event
and every job refers to its own stored row, so a handler finds what it looks up
and writes nothing but that row's result and that row's query's status.  And the
work on a row is never duplicated: at most one of the tasks that lead to its
result exists at a time, none once the result is there, so a stored result is
written once.

## Main definitions

* `Task.event` — the DTO of a `FETCH` or `RECEIVE` event, or of a job.
* `ChangesOnly` — what a handler may write.
* `Task.carries`, `tokens` — the tasks that lead to the result of a row.

## Main results

* `refers_of_reachable` — events and jobs refer to their own rows.
* `write_once_of_reachable` — at most one task for each row, and results written
  once.
-/

namespace SwapiService

open TaskPool Transition

/-! ### Events and their rows -/

/-- The DTO of a `FETCH` event, of a `RECEIVE` event or of a job. -/
def Task.event : Task → Option SubqueryDto
  | .fetchToConnector dto => some dto
  | .fetchToTraffic dto => some dto
  | .receiveToQueryManager dto => some dto
  | .receiveToCacheManager dto => some dto
  | .job j => some j.data
  | _ => none

/-- Nothing is written but the result of the row of `dto` and the status of its
query. -/
structure ChangesOnly (dto : SubqueryDto) (db db' : Database) : Prop where
  otherRows : ∀ id ≠ dto.id, db'.subqueries.lookup id = db.subqueries.lookup id
  row : ∀ row, db.subqueries.lookup dto.id = some row →
    ∃ result, db'.subqueries.lookup dto.id = some { row with result }
  otherQueries : ∀ id ≠ dto.queryId, db'.queries.lookup id = db.queries.lookup id
  query : ∀ row, db.queries.lookup dto.queryId = some row →
    ∃ status, db'.queries.lookup dto.queryId = some { row with status }

theorem ChangesOnly.refl (dto : SubqueryDto) (db : Database) : ChangesOnly dto db db where
  otherRows _ _ := rfl
  row row h := ⟨row.result, h⟩
  otherQueries _ _ := rfl
  query row h := ⟨row.status, h⟩

theorem Task.Asserts.refers_of_event {db : Database} {t : Task} (h : t.Asserts db)
    {dto : SubqueryDto} (ht : t.event = some dto) : Refers db dto := by
  cases t with
  | fetchToConnector d => cases ht; exact Awaits.refers h
  | fetchToTraffic d => cases ht; exact h
  | receiveToQueryManager d => cases ht; exact Awaits.refers h
  | receiveToCacheManager d => cases ht; exact h
  | job j => cases ht; exact Awaits.refers h
  | _ => cases ht

/-- **What a handler writes.** -/
theorem Handler.changesOnly_of_fires {db : Database} {cache : ResourceCollection}
    {dto : SubqueryDto} {phase : HandlerPhase} {c : Choice} {e : Effect Handler}
    (hok : (⟨dto, phase⟩ : Handler).Ok db) (h : Fires db cache dto phase c e) :
    ChangesOnly dto db e.db := by
  cases h with
  | savedQuery subquery query cached =>
    -- The query is the stored one but for its status.
    obtain ⟨-, -, ⟨hid, row, hrow, hcb⟩, -⟩ := hok
    have hlookup := Database.lookup_saveQuery db (updatedQuery dto query cached)
    have hqid : (updatedQuery dto query cached).id = dto.queryId := hid
    rw [hqid] at hlookup
    refine ⟨fun _ _ => rfl, fun r hr => ⟨r.result, hr⟩, fun id hne => ?_, fun r hr => ?_⟩
    · exact Database.lookup_saveQuery_ne db (hqid ▸ hne)
    · rw [← hid, hrow] at hr
      obtain rfl := Option.some.inj hr
      refine ⟨(updatedQuery dto query cached).status, ?_⟩
      rw [hlookup, hcb]
      rfl
  | savedSubquery subquery updated latest db' hsave =>
    obtain ⟨hqueries, hother, hown⟩ := hok.saved hsave
    obtain ⟨⟨row, hrow, hpath, hq, -⟩, -⟩ := hok
    show ChangesOnly dto db db'
    refine ⟨hother, fun r hr => ⟨dto.result, ?_⟩, fun _ _ => by rw [hqueries],
      fun r hr => ⟨r.status, by rw [hqueries]; exact hr⟩⟩
    rw [hrow] at hr
    obtain rfl := Option.some.inj hr
    rw [hown, ← hpath, ← hq]
  | _ => exact .refl _ _

/-- Everything in flight refers to its own row: events and jobs name a persisted
row with their path, which belongs to the persisted query they name; a handler finds
the subquery and the query of its event, and changes only that subquery's result
and that query's status. -/
structure RefersToOwnRows (s : Sys) : Prop where
  event : ∀ t ∈ s.pool, ∀ dto, t.event = some dto → Refers s.store.db dto
  findSubquery : ∀ t : Handler, .handler t ∈ s.pool →
    ∃ subquery, s.store.db.findSubquery t.dto.id = some subquery
  findQuery : ∀ t : Handler, .handler t ∈ s.pool →
    ∃ query, s.store.db.findQuery t.dto.queryId = some query
  changes : ∀ t : Handler, .handler t ∈ s.pool → ∀ c e,
    t.step s.store.db s.store.cache c = some e → ChangesOnly t.dto s.store.db e.db

/-- **In-flight work refers to its own stored row**, in every reachable state. -/
theorem refers_of_reachable (cfg : Settings) {s : Sys}
    (h : Reachable (system cfg).step initial s) : RefersToOwnRows s := by
  have hI := inv_of_reachable h
  have hok : ∀ t : Handler, .handler t ∈ s.pool → t.Ok s.store.db := fun t ht => (hI.ok _ ht).2.2
  refine ⟨fun t ht dto hdto => ?_, fun t ht => ?_, fun t ht => ?_, fun t ht c e he => ?_⟩
  · exact (hI.ok t ht).2.refers_of_event hdto
  · exact (hok t ht).finds.1
  · exact (hok t ht).finds.2.1
  · exact Handler.changesOnly_of_fires (hok t ht) (Handler.fires_of_step he)

/-- A request for one path, up to the delivery of its result to the query manager. -/
def firstResult : List (Act Choice EnvAct) :=
  [.env (.create ⟨["people/1"], some "http://localhost:3000"⟩ [⟨0⟩] ⟨1⟩), .run 0 (.read 0),
    .run 0 .proceed, .run 0 .proceed, .run 0 .proceed, .run 0 .proceed, .run 0 .proceed,
    .run 0 .proceed, .run 0 .proceed, .run 1 .proceed, .run 1 (.body (.structured "\x7b\x7d")),
    .run 1 .proceed]

/-- A task is a handler. -/
def Task.isHandler : Task → Bool
  | .handler _ => true
  | _ => false

theorem refers_of_reachable_firstResult :
    ∃ s : Sys, s.pool.any Task.isHandler = true ∧ RefersToOwnRows s := by
  have hexec : (exec (system ⟨1, "http://swapi", some⟩).step initial firstResult).any
      (fun s => s.pool.any Task.isHandler) = true := by decide +kernel
  obtain ⟨s, hs, hp⟩ := exists_reachable_of_exec _ hexec
  exact ⟨s, hp, refers_of_reachable _ hs⟩

/-! ### One task for each row -/

/-- A task that leads to the result of the row `id`: its `SCHEDULE_FETCH` event, an
admission, a job, its `FETCH` event for the connector, the connector, its `RECEIVE`
event for the query manager, or its handler. -/
def Task.carries (id : Uuid) : Task → Bool
  | .scheduleFetch payload => payload.id = some id
  | .scheduler a => a.dto.id = id
  | .processor a => a.dto.id = id
  | .job j => j.data.id = id
  | .fetchToConnector dto => dto.id = id
  | .connector f => f.dto.id = id
  | .receiveToQueryManager dto => dto.id = id
  | .handler t => t.dto.id = id
  | _ => false

/-- How many tasks lead to the result of the row `id`. -/
def tokens (s : Sys) (id : Uuid) : ℕ := s.pool.countP (Task.carries id)

theorem Task.mem_owned_of_carries {t : Task} {id : Uuid} (h : t.carries id = true) :
    id ∈ t.owned := by
  cases t with
  | scheduleFetch payload =>
    have hid : payload.id = some id := by simpa [carries] using h
    simp [owned, hid]
  | creation t => cases h
  | fetchToTraffic dto => cases h
  | usageLogger u => cases h
  | receiveToCacheManager dto => cases h
  | updater u => cases h
  | _ => simpa [carries, owned, eq_comm] using h

/-- A row without work: what `carries` counts is gone once the result is there. -/
theorem tokens_eq_zero {cfg : Settings} {s : Sys} (hI : (discipline cfg).Inv s) {id : Uuid}
    {row : SubqueryRow} (hrow : s.store.db.subqueries.lookup id = some row)
    (hres : row.result ≠ .null) : tokens s id = 0 := by
  rw [tokens, List.countP_eq_zero]
  intro t ht hcarries
  exact hres ((hI.ok t ht).2.result_eq_null (Task.mem_owned_of_carries hcarries) hrow)

/-- A result a poll shows is stored. -/
theorem mem_fetchQueryResultsAsync {db : Database} {queryId : Uuid} {d : SubqueryDto} :
    d ∈ (fetchQueryResultsAsync db queryId).subqueries ↔
      queryId ∈ db.queries ∧ d.queryId = queryId ∧
        db.subqueries.lookup d.id = some ⟨d.path, queryId, d.result⟩ := by
  unfold fetchQueryResultsAsync
  cases hfind : db.findQuery queryId with
  | none =>
    have hnone : queryId ∉ db.queries := by
      rw [Database.findQuery, Option.map_eq_none_iff] at hfind
      exact AList.lookup_eq_none.mp hfind
    simp [hnone]
  | some query =>
    obtain ⟨qrow, hqrow, rfl⟩ := Database.findQuery_eq_some.mp hfind
    have hmem : queryId ∈ db.queries := Database.mem_of_lookup hqrow
    simp only [List.mem_map, Database.mem_subqueriesOf, hmem, true_and]
    constructor
    · rintro ⟨e, ⟨⟨path, qid, result⟩, hrow, rfl, he⟩, rfl⟩
      rw [he]
      exact ⟨rfl, hrow⟩
    · rintro ⟨hq, hrow⟩
      refine ⟨Database.toEntity d.id ⟨d.path, queryId, d.result⟩, ⟨_, hrow, rfl, rfl⟩, ?_⟩
      rw [← hq]
      rfl

/-- No work is duplicated in `s`, and what has a result there keeps it until `s'`:
there is no task for its row, the row is the same, and a poll shows the same. -/
structure WriteOnce (s s' : Sys) : Prop where
  tokens : ∀ id, tokens s id ≤ 1
  done : ∀ id row, s.store.db.subqueries.lookup id = some row → row.result ≠ .null →
    SwapiService.tokens s' id = 0
  result : ∀ id row, s.store.db.subqueries.lookup id = some row → row.result ≠ .null →
    s'.store.db.subqueries.lookup id = some row
  poll : ∀ queryId, ∀ d ∈ (fetchQueryResultsAsync s.store.db queryId).subqueries,
    d.result ≠ .null →
    d ∈ (fetchQueryResultsAsync s'.store.db queryId).subqueries ∧
      ∀ d' ∈ (fetchQueryResultsAsync s'.store.db queryId).subqueries, d'.id = d.id → d' = d

/-- **Results are written once and fetch work is never duplicated**, from any
reachable state on. -/
theorem write_once_of_reachable (cfg : Settings) {s s' : Sys}
    (h : Reachable (system cfg).step initial s) (h' : Reachable (system cfg).step s s') :
    WriteOnce s s' := by
  have hI := inv_of_reachable h
  have hI' := inv_of_reachable (h.trans h')
  have hgrows := grows_of_reachable h h'
  refine ⟨fun id => ?_, fun id row hrow hres => ?_, hgrows.result, fun queryId d hd hres => ?_⟩
  · exact hI.countP_le_one fun t _ ht => Task.mem_owned_of_carries ht
  · exact tokens_eq_zero hI' (hgrows.result id row hrow hres) hres
  · obtain ⟨hmem, hq, hrow⟩ := mem_fetchQueryResultsAsync.mp hd
    have hrow' := hgrows.result d.id _ hrow hres
    obtain ⟨qrow, hqrow⟩ := Database.exists_lookup hmem
    obtain ⟨qrow', hqrow', -⟩ := hgrows.query queryId qrow hqrow
    have hmem' : queryId ∈ s'.store.db.queries := Database.mem_of_lookup hqrow'
    refine ⟨mem_fetchQueryResultsAsync.mpr ⟨hmem', hq, hrow'⟩, fun d' hd' hid => ?_⟩
    -- Both are what is stored in the one row with that id.
    obtain ⟨-, hq', hrow''⟩ := mem_fetchQueryResultsAsync.mp hd'
    rw [hid, hrow', Option.some.injEq, SubqueryRow.mk.injEq] at hrow''
    obtain ⟨hpath, -, hresult⟩ := hrow''
    obtain ⟨id, path, qid, result⟩ := d
    obtain ⟨id', path', qid', result'⟩ := d'
    simp only at hid hpath hresult hq hq'
    rw [hid, hpath, hresult, hq, hq']

/-- The rest of that run: the handler reads the cache and saves. -/
def firstSave : List (Act Choice EnvAct) :=
  [.run 2 .proceed, .run 2 .proceed, .run 2 (.read 0), .run 2 .proceed, .run 2 .proceed,
    .run 2 .proceed]

theorem write_once_of_reachable_firstSave :
    ∃ s s' : Sys, s.store.db.subqueries.lookup ⟨0⟩
        = some ⟨"people/1", ⟨1⟩, .structured "\x7b\x7d"⟩ ∧
      s'.store.polled ≠ [] ∧ WriteOnce s s' := by
  have hexec : (exec (system ⟨1, "http://swapi", some⟩).step initial (firstResult ++ firstSave)).any
      (fun s => s.store.db.subqueries.lookup ⟨0⟩
        = some ⟨"people/1", ⟨1⟩, .structured "\x7b\x7d"⟩) = true := by decide +kernel
  obtain ⟨s, hs, hp⟩ := exists_reachable_of_exec _ hexec
  have hpoll : Reachable (system ⟨1, "http://swapi", some⟩).step s
      ⟨{ s.store with
          polled := s.store.polled ++ [fetchQueryResultsAsync s.store.db ⟨1⟩] }, s.pool ++ []⟩ :=
    (Reachable.refl s).tail (a := .env (.poll ⟨1⟩)) rfl
  exact ⟨s, _, of_decide_eq_true hp, by simp, write_once_of_reachable _ hs hpoll⟩

end SwapiService
