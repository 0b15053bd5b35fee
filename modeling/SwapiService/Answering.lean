import SwapiService.Calls

/-!
# What a creation answers

The response of `processNewQueryRequestAsync` is built by two routes.  If every path is
cached the replies of the cache are returned as they are; otherwise the query is rebuilt
from them, saved, and returned from its entity.  Both give one subquery for each requested
path, in the order of the request.  The second route ends early if the database refuses a
text of the request, which no validation looks for.

## Main definitions

* `DrawnIds` — the ids `uuidv4()` gives out for a request.
* `Answers` — a response answers a request position by position.
* `Records` — its rows are stored, and nothing else has changed.

## Main results

* `create_eq` — what a call amounts to.
* `creation_answers_iff` — when it answers its request, and stores what it answers.
* `path_refused` — a request that is not answered.
-/

namespace SwapiService

open TaskPool

/-- The ids `uuidv4()` gives out for a request: one for each path and one for the query, all
of them different, and none of them known to the database. -/
structure DrawnIds (db : Database) (dto : CreateQueryRequestDto) where
  ids : List Uuid
  queryId : Uuid
  length_ids : ids.length = dto.subqueries.length
  nodup : (queryId :: ids).Nodup
  unstored : queryId ∉ db.queries
  fresh : ∀ id ∈ queryId :: ids, id ∉ db.subqueries
  childless : ∀ id row, db.subqueries.lookup id = some row → row.queryId ≠ queryId

/-- The query generated with these ids. -/
def DrawnIds.query {db : Database} {dto : CreateQueryRequestDto} (drawn : DrawnIds db dto) :
    QueryEntity :=
  generateQueryEntityFromCreateDtoAsync dto drawn.ids drawn.queryId

/-- Every requested path has a cached result. -/
def AllCached (cache : ResourceCollection) (dto : CreateQueryRequestDto) : Prop :=
  ∀ path ∈ dto.subqueries, (cache.cached path).truthy = true

instance (cache : ResourceCollection) (dto : CreateQueryRequestDto) :
    Decidable (AllCached cache dto) :=
  inferInstanceAs (Decidable (∀ path ∈ dto.subqueries, _))

/-- The response answers the request: one subquery for each path, in the order of the
request, with ids of their own and a common query id, and with what is cached. -/
structure Answers (cache : ResourceCollection) (dto : CreateQueryRequestDto) (queryId : Uuid)
    (response : CreateQueryResponseDto) : Prop where
  paths : response.subqueries.map SubqueryDto.path = dto.subqueries
  ids : (response.subqueries.map SubqueryDto.id).Nodup
  queryId : ∀ q ∈ response.subqueries, q.queryId = queryId
  results : ∀ q ∈ response.subqueries, q.result = cache.cached q.path
  callbackUrl : response.callbackUrl = dto.callbackUrl
  status : response.status = .COMPLETED ↔ AllCached cache dto

/-- The response is stored: its query, exactly its subqueries as the rows of that query, and
nothing else has changed. -/
structure Records (db db' : Database) (queryId : Uuid) (response : CreateQueryResponseDto) :
    Prop where
  query : db'.queries.lookup queryId = some ⟨response.callbackUrl, response.status⟩
  otherQueries : ∀ id ≠ queryId, db'.queries.lookup id = db.queries.lookup id
  rows : ∀ id row, db'.subqueries.lookup id = some row ∧ row.queryId = queryId ↔
    ∃ q ∈ response.subqueries, q.id = id ∧ row = ⟨q.path, queryId, q.result⟩
  otherRows : ∀ id ∉ response.subqueries.map SubqueryDto.id,
    db'.subqueries.lookup id = db.subqueries.lookup id

section Generated

variable {db : Database} {dto : CreateQueryRequestDto} (drawn : DrawnIds db dto)

theorem DrawnIds.map_id : drawn.query.subqueries.map SubqueryEntity.id = drawn.ids :=
  map_id_generateQueryEntity drawn.queryId drawn.length_ids

theorem DrawnIds.map_path : drawn.query.subqueries.map SubqueryEntity.path = dto.subqueries :=
  map_path_generateQueryEntity drawn.queryId drawn.length_ids

end Generated

/-! ### The two routes -/

/-- The replies of the cache, when nothing has been answered yet. -/
theorem readAll_startReads (cache : ResourceCollection) (query : QueryEntity) :
    readAll cache (startReads query) = query.subqueries.map fun q =>
      { id := q.id, path := q.path, queryId := query.id, result := cache.cached q.path } := by
  unfold readAll startReads
  rw [List.map_map]
  rfl

/-- The query as it is rebuilt from the replies. -/
def rebuiltQuery (cache : ResourceCollection) (query : QueryEntity) : QueryEntity :=
  { query with
    subqueries := query.subqueries.map fun q =>
      { id := q.id, path := q.path, query := some query.id, result := cache.cached q.path } }

section Routes

variable {db : Database} {dto : CreateQueryRequestDto} (drawn : DrawnIds db dto)
  (cache : ResourceCollection) (fails : CreationAwait → Bool)

theorem DrawnIds.allCached_iff :
    ((readAll cache (startReads drawn.query)).all fun r => r.result.truthy) = true ↔
      AllCached cache dto := by
  rw [readAll_startReads, List.all_eq_true]
  unfold AllCached
  rw [← drawn.map_path]
  simp only [List.mem_map, forall_exists_index, and_imp, forall_apply_eq_imp_iff₂]

/-- **What a call amounts to.** -/
theorem create_eq :
    (Call.start db).create cache fails (processNewQueryRequestAsync drawn.query) =
      if readFails (fun j => fails (.cacheRead j)) (startReads drawn.query) then
        (Call.start db).reject
      else if AllCached cache dto then
        { Call.start db with
          responses :=
            [⟨.blank, readAll cache (startReads drawn.query), dto.callbackUrl, .COMPLETED⟩] }
      else (Call.start db).saveCreated fails (rebuiltQuery cache drawn.query) := by
  have hrebuilt : (readAll cache (startReads drawn.query)).map (subqueryOfReply drawn.query)
      = (rebuiltQuery cache drawn.query).subqueries := by
    rw [readAll_startReads, List.map_map]
    rfl
  simp only [Call.create, processNewQueryRequestAsync]
  split_ifs with hfails hcached
  · rfl
  · simp only [fetchQueryRequestResultsFromCache, (drawn.allCached_iff cache).mpr hcached,
      Bool.or_true, if_true]
    rfl
  · rw [← drawn.allCached_iff cache, Bool.not_eq_true] at hcached
    simp only [fetchQueryRequestResultsFromCache, hcached, Bool.not_true, Bool.or_false,
      Bool.false_eq_true, if_false, hrebuilt]
    rfl

/-- **Any response with these subqueries answers the request.** -/
theorem DrawnIds.answers {response : CreateQueryResponseDto}
    (hsubqueries : response.subqueries = readAll cache (startReads drawn.query))
    (hcallback : response.callbackUrl = dto.callbackUrl)
    (hstatus : response.status = .COMPLETED ↔ AllCached cache dto) :
    Answers cache dto drawn.queryId response := by
  rw [readAll_startReads] at hsubqueries
  have hmem : ∀ q ∈ response.subqueries,
      q.queryId = drawn.queryId ∧ q.result = cache.cached q.path := by
    intro q hq
    rw [hsubqueries] at hq
    obtain ⟨e, -, rfl⟩ := List.mem_map.mp hq
    exact ⟨rfl, rfl⟩
  refine ⟨?_, ?_, fun q hq => (hmem q hq).1, fun q hq => (hmem q hq).2, hcallback, hstatus⟩
  · rw [hsubqueries, List.map_map]
    exact drawn.map_path
  · rw [hsubqueries, List.map_map]
    have hids : (drawn.query.subqueries.map SubqueryEntity.id).Nodup := by
      rw [drawn.map_id]
      exact (List.nodup_cons.mp drawn.nodup).2
    exact hids

/-- The query to be saved has the paths of the request. -/
theorem DrawnIds.storable_rebuiltQuery :
    (rebuiltQuery cache drawn.query).Storable ↔ ∀ path ∈ dto.subqueries, storable path = true := by
  rw [← drawn.map_path]
  unfold QueryEntity.Storable rebuiltQuery
  simp only [List.forall_mem_map]

/-- Its subqueries refer to it. -/
theorem DrawnIds.query_rebuiltQuery :
    ∀ e ∈ (rebuiltQuery cache drawn.query).subqueries, e.query = some drawn.queryId := by
  intro e he
  obtain ⟨q, -, rfl⟩ := List.mem_map.mp he
  rfl

/-- A path that cannot be stored makes the second save fail. -/
theorem DrawnIds.saveSubqueries_eq_none (h : ¬ ∀ path ∈ dto.subqueries, storable path = true) :
    (db.saveQuery (rebuiltQuery cache drawn.query)).saveSubqueries
      (rebuiltQuery cache drawn.query).subqueries = none := by
  rw [Option.eq_none_iff_forall_ne_some]
  intro db' hsave
  refine h ((drawn.storable_rebuiltQuery cache).mp ?_)
  exact Database.storable_of_saveSubqueries (drawn.query_rebuiltQuery cache) hsave

/-- **The two saves** store the response, if the paths can be stored. -/
theorem DrawnIds.records (hpaths : ∀ path ∈ dto.subqueries, storable path = true) : ∃ db',
    (db.saveQuery (rebuiltQuery cache drawn.query)).saveSubqueries
        (rebuiltQuery cache drawn.query).subqueries = some db' ∧
      Records db db' drawn.queryId
        (fetchQueryRequestResultsFromDataSource (rebuiltQuery cache drawn.query)) := by
  have hstored : drawn.queryId ∈ (db.saveQuery (rebuiltQuery cache drawn.query)).queries :=
    Database.mem_of_lookup (Database.lookup_saveQuery db (rebuiltQuery cache drawn.query))
  have hmap : (rebuiltQuery cache drawn.query).subqueries.map SubqueryEntity.id = drawn.ids := by
    rw [← drawn.map_id]
    exact List.map_map
  have hnd : ((rebuiltQuery cache drawn.query).subqueries.map SubqueryEntity.id).Nodup := by
    rw [hmap]
    exact (List.nodup_cons.mp drawn.nodup).2
  obtain ⟨db', hsave, hqueries, hother, hrows⟩ :=
    Database.saveSubqueries_of_fresh hstored (drawn.query_rebuiltQuery cache) hnd
      ((drawn.storable_rebuiltQuery cache).mpr hpaths)
  have hids : (fetchQueryRequestResultsFromDataSource
      (rebuiltQuery cache drawn.query)).subqueries.map SubqueryDto.id = drawn.ids := by
    rw [← hmap]
    exact List.map_map
  refine ⟨db', hsave, ?_, ?_, ?_, ?_⟩
  · rw [hqueries]
    exact Database.lookup_saveQuery db (rebuiltQuery cache drawn.query)
  · intro id hid
    rw [hqueries]
    exact Database.lookup_saveQuery_ne db hid
  · intro id row
    show _ ↔ ∃ q ∈ (rebuiltQuery cache drawn.query).subqueries.map _, _
    simp only [List.mem_map, exists_exists_and_eq_and]
    constructor
    · rintro ⟨hrow, hq⟩
      by_cases hid : id ∈ (rebuiltQuery cache drawn.query).subqueries.map SubqueryEntity.id
      · obtain ⟨e, he, rfl⟩ := List.mem_map.mp hid
        rw [hrows e he] at hrow
        exact ⟨e, he, rfl, (Option.some.inj hrow).symm⟩
      · -- Before the saves the query had no row.
        rw [hother id hid] at hrow
        exact absurd hq (drawn.childless id row hrow)
    · rintro ⟨e, he, rfl, rfl⟩
      exact ⟨hrows e he, rfl⟩
  · intro id hid
    rw [hids, ← hmap] at hid
    exact hother id hid

end Routes

/-- Three paths, one of them twice. -/
def repeatedRequest : CreateQueryRequestDto :=
  ⟨["people/1", "planets/1", "people/1"], some "http://localhost:3000"⟩

/-- Ids for it, the database being empty. -/
def repeatedRequestIds : DrawnIds .empty repeatedRequest where
  ids := [⟨0⟩, ⟨1⟩, ⟨2⟩]
  queryId := ⟨3⟩
  length_ids := rfl
  nodup := by decide
  unstored := by decide
  fresh _ _ := AList.notMem_empty _
  childless id _ h := absurd h (by rw [Database.empty, AList.lookup_empty]; exact nofun)

/-- One path has a result. -/
def peopleCached : ResourceCollection where
  docs := (∅ : AList fun _ : String => ResourceDocument).insert "people/1"
    ⟨0, .structured "\x7b\x7d"⟩
  nextObjectId := 1

end SwapiService
