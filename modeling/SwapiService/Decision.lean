import SwapiService.Sequential

/-!
# What the handler of a result decides from

A handler decides whether its query is completed.  It has the query's rows at hand,
but it looks every path up in the cache again and decides from the replies.  So its
decision is right just in case the cache and the rows agree on one question: whether
the *other* subqueries of the query all have a result.  An entry that has expired
leaves the query pending forever, and an entry another query has filled completes it
too early.

## Main definitions

* `Database.AllResults` — every stored subquery of a query has a result.
* `OthersStored` — every other subquery of the query has a stored result.

## Main results

* `allResults_handleSubqueryResult` — whether all results are stored afterwards.
* `decides_from_results_iff` — when a handler decides from the stored results.
* `never_completed` — all results stored, and the query pending.
-/

namespace SwapiService

open TaskPool Transition

/-- Every stored subquery of the query has a result. -/
def Database.AllResults (db : Database) (queryId : Uuid) : Prop :=
  ∀ id row, db.subqueries.lookup id = some row → row.queryId = queryId → row.result ≠ .null

/-- Every other subquery of the query has a stored result. -/
def OthersStored (db : Database) (dto : SubqueryDto) : Prop :=
  ∀ id row, db.subqueries.lookup id = some row → row.queryId = dto.queryId → id ≠ dto.id →
    row.result ≠ .null

/-- The query has no other subquery. -/
def OnlySubquery (db : Database) (dto : SubqueryDto) : Prop :=
  ∀ id row, db.subqueries.lookup id = some row → row.queryId = dto.queryId → id = dto.id

section Decision

variable {db : Database} {cache : ResourceCollection} {dto : SubqueryDto} {row : SubqueryRow}
  {qrow : QueryRow}

/-- **The status afterwards** is decided from the cache. -/
theorem completed_handleSubqueryResult (hrow : db.subqueries.lookup dto.id = some row)
    (hq : row.queryId = dto.queryId) (hqrow : db.queries.lookup dto.queryId = some qrow)
    (htruthy : dto.result.truthy = true) :
    (handleSubqueryResult db cache dto).Completed dto.queryId ↔ OthersCached db cache dto := by
  have hlookup : (handleSubqueryResult db cache dto).queries.lookup dto.queryId
      = some ⟨qrow.callbackUrl, (decidedQuery db cache dto qrow).status⟩ := by
    rw [handleSubqueryResult_eq hrow hqrow]
    exact Database.lookup_saveQuery db (decidedQuery db cache dto qrow)
  have hdecided :
      (decidedQuery db cache dto qrow).status = .COMPLETED ↔ OthersCached db cache dto :=
    status_decidedQuery_iff hrow hq htruthy
  rw [← hdecided]
  constructor
  · intro hcompleted
    obtain ⟨r, hr, hstatus⟩ := hcompleted
    rw [hlookup] at hr
    obtain rfl := Option.some.inj hr
    exact hstatus
  · intro hstatus
    exact ⟨_, hlookup, hstatus⟩

/-- **The rows afterwards**: all have results just in case the other ones had. -/
theorem allResults_handleSubqueryResult (hrow : db.subqueries.lookup dto.id = some row)
    (hqrow : db.queries.lookup dto.queryId = some qrow) (htruthy : dto.result.truthy = true) :
    (handleSubqueryResult db cache dto).AllResults dto.queryId ↔ OthersStored db dto := by
  rw [handleSubqueryResult_eq hrow hqrow]
  show (∀ id r, (db.subqueries.insert dto.id { row with result := dto.result }).lookup id = some r →
    r.queryId = dto.queryId → r.result ≠ .null) ↔ _
  constructor
  · intro hall id r hr hrq hid
    apply hall id r _ hrq
    rwa [AList.lookup_insert_ne hid]
  · intro hothers id r hr hrq
    by_cases hid : id = dto.id
    · -- Its own row has the result of the event.
      subst hid
      rw [AList.lookup_insert] at hr
      obtain rfl := Option.some.inj hr
      exact Json.ne_null_of_truthy htruthy
    · rw [AList.lookup_insert_ne hid] at hr
      exact hothers id r hr hrq hid

/-- Some cache has a result for each of finitely many paths. -/
theorem exists_cached (paths : List String) :
    ∃ cache : ResourceCollection, ∀ path ∈ paths, (cache.cached path).truthy = true := by
  induction paths with
  | nil => exact ⟨.empty, by simp⟩
  | cons p paths ih =>
    obtain ⟨c, hc⟩ := ih
    obtain ⟨c', hsave⟩ := c.exists_save ⟨⟨0⟩, p, ⟨0⟩, .bool true⟩
    refine ⟨c', fun path hpath => ?_⟩
    rw [ResourceCollection.cached_save hsave]
    split_ifs with heq
    · rfl
    · exact hc path ((List.mem_cons.mp hpath).resolve_left heq)

/-- **When the outcome does not depend on the cache**: just in case the query has no
other subquery. -/
theorem handleSubqueryResult_congr_iff (hrow : db.subqueries.lookup dto.id = some row)
    (hq : row.queryId = dto.queryId) (hqrow : db.queries.lookup dto.queryId = some qrow)
    (htruthy : dto.result.truthy = true) :
    (∀ cache₁ cache₂, handleSubqueryResult db cache₁ dto = handleSubqueryResult db cache₂ dto) ↔
      OnlySubquery db dto := by
  constructor
  · intro hsame id r hr hrq
    by_contra hid
    -- With every path cached the query is completed, with none it is not.
    obtain ⟨cache, hcache⟩ := exists_cached (db.subqueries.entries.map fun e => e.2.path)
    have hcached : OthersCached db cache dto := by
      intro i r' hr' _ _
      apply hcache
      exact List.mem_map.mpr ⟨⟨i, r'⟩, AList.mem_lookup_iff.mp hr', rfl⟩
    have hcompleted := (completed_handleSubqueryResult hrow hq hqrow htruthy).mpr hcached
    rw [hsame cache .empty, completed_handleSubqueryResult hrow hq hqrow htruthy] at hcompleted
    exact absurd (hcompleted id r hr hrq hid) Bool.false_ne_true
  · intro honly cache₁ cache₂
    have hvacuous : ∀ cache, OthersCached db cache dto := by
      intro cache id r hr hrq hid
      exact absurd (honly id r hr hrq) hid
    have hstatus : ∀ cache, (decidedQuery db cache dto qrow).status = .COMPLETED := by
      intro cache
      exact (status_decidedQuery_iff hrow hq htruthy).mpr (hvacuous cache)
    have hdecided : ∀ cache, decidedQuery db cache dto qrow
        = { loadedQuery db dto.queryId qrow with status := .COMPLETED } := by
      intro cache
      rw [← hstatus cache]
      rfl
    rw [handleSubqueryResult_eq hrow hqrow, handleSubqueryResult_eq hrow hqrow, hdecided, hdecided]

/-- **When a handler decides from the results of its query.**  Let an event with a truthy
result name a stored subquery of the stored query it names, and let its handler run to
completion.  The query is then completed just in case all its results are stored, if
and only if before either every other subquery had a cached result and every other one
a stored result, or neither was so.  The outcome is the same for all caches if and only
if the query has no other subquery. -/
theorem decides_from_results_iff (hrow : db.subqueries.lookup dto.id = some row)
    (hq : row.queryId = dto.queryId) (hqrow : db.queries.lookup dto.queryId = some qrow)
    (htruthy : dto.result.truthy = true) {s' : ResultStore}
    (h : resultHandling.Completes (· ≠ .fail) ⟨db, cache⟩ (.handler ⟨dto, .findSubquery⟩) s') :
    ((s'.db.Completed dto.queryId ↔ s'.db.AllResults dto.queryId) ↔
        (OthersCached db cache dto ↔ OthersStored db dto)) ∧
      ((∀ cache₁ cache₂ s₁ s₂,
          resultHandling.Completes (· ≠ .fail) ⟨db, cache₁⟩ (.handler ⟨dto, .findSubquery⟩) s₁ →
          resultHandling.Completes (· ≠ .fail) ⟨db, cache₂⟩ (.handler ⟨dto, .findSubquery⟩) s₂ →
          s₁.db = s₂.db) ↔ OnlySubquery db dto) := by
  have hfinish : ∀ {cache s}, resultHandling.Completes (· ≠ .fail) ⟨db, cache⟩
      (.handler ⟨dto, .findSubquery⟩) s ↔ s = ⟨handleSubqueryResult db cache dto, cache⟩ :=
    completes_iff
  obtain rfl := hfinish.mp h
  refine ⟨?_, ?_⟩
  · rw [completed_handleSubqueryResult hrow hq hqrow htruthy,
      allResults_handleSubqueryResult hrow hqrow htruthy]
  · rw [← handleSubqueryResult_congr_iff hrow hq hqrow htruthy]
    constructor
    · intro hsame cache₁ cache₂
      exact hsame cache₁ cache₂ _ _ (hfinish.mpr rfl) (hfinish.mpr rfl)
    · intro hsame cache₁ cache₂ s₁ s₂ h₁ h₂
      obtain rfl := hfinish.mp h₁
      obtain rfl := hfinish.mp h₂
      exact hsame cache₁ cache₂

end Decision

/-- A pending query of two paths, the first of which has its result. -/
def halfDone : Database where
  queries := (∅ : AList fun _ : Uuid => QueryRow).insert ⟨2⟩ ⟨none, .PENDING⟩
  subqueries := ((∅ : AList fun _ : Uuid => SubqueryRow).insert ⟨0⟩
    ⟨"people/1", ⟨2⟩, .structured "\x7b\x7d"⟩).insert ⟨1⟩ ⟨"planets/1", ⟨2⟩, .null⟩

/-- The result of the second. -/
def lastResult : SubqueryDto := ⟨⟨1⟩, "planets/1", ⟨2⟩, .structured "[]"⟩

/-- The rows of a table are its entries. -/
theorem Database.forall_rows {db : Database} {P : Uuid → SubqueryRow → Prop} :
    (∀ e ∈ db.subqueries.entries, P e.1 e.2) ↔
      ∀ id row, db.subqueries.lookup id = some row → P id row := by
  constructor
  · intro h id row hrow
    exact h ⟨id, row⟩ (AList.mem_lookup_iff.mp hrow)
  · intro h e he
    exact h e.1 e.2 (AList.mem_lookup_iff.mpr he)

instance (db : Database) (queryId : Uuid) : Decidable (db.AllResults queryId) :=
  decidable_of_iff _ (Database.forall_rows (P := fun _ row => row.queryId = queryId →
    row.result ≠ .null))

instance (db : Database) (dto : SubqueryDto) : Decidable (OthersStored db dto) :=
  decidable_of_iff _ (Database.forall_rows (P := fun id row => row.queryId = dto.queryId →
    id ≠ dto.id → row.result ≠ .null))

instance (db : Database) (cache : ResourceCollection) (dto : SubqueryDto) :
    Decidable (OthersCached db cache dto) :=
  decidable_of_iff _ (Database.forall_rows (P := fun id row => row.queryId = dto.queryId →
    id ≠ dto.id → (cache.cached row.path).truthy = true))

/-- **A query that is never completed**: the cache entry of its first path has expired
before the last result arrives.  All results are stored, and the query is pending. -/
theorem never_completed :
    ∃ s', resultHandling.Completes (· ≠ .fail) ⟨halfDone, .empty⟩
        (.handler ⟨lastResult, .findSubquery⟩) s' ∧
      s'.db.AllResults ⟨2⟩ ∧ ¬ s'.db.Completed ⟨2⟩ := by
  refine ⟨_, completes_iff.mpr rfl, by decide +kernel, ?_⟩
  rintro ⟨row, hrow, hstatus⟩
  have hpending : (handleSubqueryResult halfDone .empty lastResult).queries.lookup ⟨2⟩
      = some ⟨none, .PENDING⟩ := by decide +kernel
  have hrow :
      (handleSubqueryResult halfDone .empty lastResult).queries.lookup ⟨2⟩ = some row := hrow
  rw [hpending] at hrow
  obtain rfl := Option.some.inj hrow
  cases hstatus

theorem decides_from_results_cached :
    ∃ cache s', resultHandling.Completes (· ≠ .fail) ⟨halfDone, cache⟩
        (.handler ⟨lastResult, .findSubquery⟩) s' ∧
      (s'.db.Completed ⟨2⟩ ↔ s'.db.AllResults ⟨2⟩) := by
  let cache :=
    (ResourceCollection.empty.save ⟨none, "people/1", .structured "\x7b\x7d"⟩).getD .empty
  have hrun : resultHandling.Completes (· ≠ .fail) ⟨halfDone, cache⟩
      (.handler ⟨lastResult, .findSubquery⟩)
      (ResultTask.finish ⟨halfDone, cache⟩ (.handler ⟨lastResult, .findSubquery⟩)) :=
    completes_iff.mpr rfl
  have hrow : halfDone.subqueries.lookup lastResult.id = some ⟨"planets/1", ⟨2⟩, .null⟩ := by
    decide +kernel
  have hqrow : halfDone.queries.lookup lastResult.queryId = some ⟨none, .PENDING⟩ := by
    decide +kernel
  have hdecides := decides_from_results_iff hrow rfl hqrow (by decide) hrun
  have hcached : OthersCached halfDone cache lastResult := by decide +kernel
  have hstored : OthersStored halfDone lastResult := by decide +kernel
  exact ⟨cache, _, hrun, hdecides.1.mpr (iff_of_true hcached hstored)⟩

end SwapiService
