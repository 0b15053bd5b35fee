import SwapiService.CacheManager
import SwapiService.Database
import SwapiService.Lib.PlainObject

/-!
# The query manager

The three operations of `QueryManagerService`: creating a query, handling the
result of a subquery, and polling.  The first two are split at their `await`s; a
segment is the awaited call taking effect and the code that follows, up to the
next `await`.

## Main definitions

* `CacheRead`, `answerRead` — the parallel `CACHE_READ`s of
  `fetchQueryRequestResultsFromCache`, answered one by one in any order.
* `fetchQueryRequestResultsFromCache` — what that function makes of the replies.
* `targetSubqueries`, `fetchQueryRequestResultsFromDataSource` — which
  subqueries are scheduled, and the response of a query that was recorded.
* `Creation`, `Creation.step` — the segments of `processNewQueryRequestAsync`.
* `Handler`, `Handler.step` — the segments of `handleSubqueryResultAsync`.
* `fetchQueryResultsAsync` — polling, a single read.

## Main results

* `Creation.fires_of_step`, `Handler.fires_of_step` — what one segment can do.
-/

namespace SwapiService

open TaskPool

/-! ### Reading the cache in parallel -/

/-- One of the parallel `CACHE_READ`s: the request, and the reply once it is
there. -/
structure CacheRead where
  request : SubqueryDto
  reply : Option SubqueryDto
  deriving DecidableEq, Repr

/-- The `CACHE_READ`s for the subqueries of a query, none of them answered. -/
def startReads (query : QueryEntity) : List CacheRead :=
  query.subqueries.map fun q => ⟨{ id := q.id, path := q.path, queryId := query.id }, none⟩

/-- The cache manager answers the read at position `j`. -/
def answerRead (cache : ResourceCollection) (reads : List CacheRead) (j : ℕ) :
    Option (List CacheRead) :=
  reads[j]?.bind fun r =>
    match r.reply with
    | some _ => none
    | none => some (reads.set j { r with reply := some (readCacheAsync cache r.request) })

/-- **What an answer does**: it adds the reply to a read that has none. -/
theorem exists_of_answerRead {cache : ResourceCollection} {reads reads' : List CacheRead} {j : ℕ}
    (h : answerRead cache reads j = some reads') :
    ∃ r, reads[j]? = some r ∧ r.reply = none ∧
      reads' = reads.set j { r with reply := some (readCacheAsync cache r.request) } := by
  obtain ⟨r, hr, h⟩ := Option.bind_eq_some_iff.mp h
  cases hreply : r.reply with
  | some d =>
    rw [hreply] at h
    cases h
  | none =>
    rw [hreply] at h
    exact ⟨r, hr, hreply, (Option.some.inj h).symm⟩

/-- The replies, once every read has been answered: `Promise.all`. -/
def allReplies (reads : List CacheRead) : Option (List SubqueryDto) :=
  promiseAll (reads.map CacheRead.reply)

/-- The subquery of a query entity rebuilt from a reply. -/
def subqueryOfReply (query : QueryEntity) (q : SubqueryDto) : SubqueryEntity :=
  { id := q.id, path := q.path, query := some query.id, result := q.result }

/-- `fetchQueryRequestResultsFromCache` after its reads: the response, or `null`,
and the query as it leaves it. -/
def fetchQueryRequestResultsFromCache (query : QueryEntity) (newSubqueries : List SubqueryDto)
    (shouldAllResultsExist : Bool) : Option CreateQueryResponseDto × QueryEntity :=
  let allResultsExistInCache := newSubqueries.all fun r => r.result.truthy
  if !shouldAllResultsExist || allResultsExistInCache then
    (some { id := .blank, subqueries := newSubqueries, callbackUrl := query.callbackUrl,
            status := .COMPLETED }, query)
  else
    -- The input query is mutated, to re-use the partial cache results.
    (none, { query with subqueries := newSubqueries.map (subqueryOfReply query) })

/-! ### Creating a query -/

/-- `generateQueryEntityFromCreateDtoAsync`, which draws an id for every subquery
and then one for the query. -/
def generateQueryEntityFromCreateDtoAsync (dto : CreateQueryRequestDto) (ids : List Uuid)
    (queryId : Uuid) : QueryEntity :=
  { id := queryId
    subqueries := List.zipWith (fun id path => ⟨id, path, some queryId, .null⟩) ids dto.subqueries
    callbackUrl := dto.callbackUrl
    status := .PENDING }

/-- The subqueries of a query that have no result. -/
def missingSubqueries (query : QueryEntity) : List SubqueryEntity :=
  query.subqueries.filter fun e => !e.result.truthy

/-- `targetSubqueries`: the subqueries without a result, folded into an object by
their path, and the values of that object. -/
def targetSubqueries (query : QueryEntity) : List (PropValue SubqueryEntity) :=
  (PlainObject.collect SubqueryEntity.path (missingSubqueries query)).values

/-- The event for a value of `targetSubqueries`.  A builtin of `Object.prototype`
has neither an `id` nor a `path`. -/
def schedulePayload (queryId : Uuid) : PropValue SubqueryEntity → SubqueryPayload
  | .value e => ⟨some e.id, some e.path, queryId⟩
  | .builtin _ => ⟨none, none, queryId⟩

/-- The response of `fetchQueryRequestResultsFromDataSource`. -/
def fetchQueryRequestResultsFromDataSource (query : QueryEntity) : CreateQueryResponseDto :=
  { id := .uuid query.id
    subqueries := query.subqueries.map fun q =>
      { id := q.id, path := q.path, queryId := q.query.getD query.id, result := q.result }
    callbackUrl := query.callbackUrl
    status := query.status }

/-- Where an activation of `processNewQueryRequestAsync` waits. -/
inductive CreationPhase
  | readCache (reads : List CacheRead)
  | saveQuery
  | saveSubqueries
  deriving DecidableEq, Repr

/-- An activation of `processNewQueryRequestAsync`. -/
structure Creation where
  query : QueryEntity
  phase : CreationPhase
  deriving DecidableEq, Repr

/-- `processNewQueryRequestAsync` up to its first `await`. -/
def processNewQueryRequestAsync (query : QueryEntity) : Creation :=
  ⟨query, .readCache (startReads query)⟩

/-- A POST to a callback URL. -/
structure Notification where
  url : String
  body : CreateQueryResponseDto
  deriving DecidableEq, Repr

/-- What a segment of an operation does: the database after it, how it ends, the
`SCHEDULE_FETCH` events it published, its response and its POSTs. -/
structure Effect (α : Type) where
  db : Database
  outcome : Outcome α
  emitted : List SubqueryPayload := []
  responses : List CreateQueryResponseDto := []
  posts : List Notification := []

/-- One segment of `processNewQueryRequestAsync`. -/
def Creation.step (db : Database) (cache : ResourceCollection) (t : Creation) :
    Choice → Option (Effect Creation)
  | .fail => some { db, outcome := .rejected }
  | .read j =>
      match t.phase with
      | .readCache reads => (answerRead cache reads j).map fun reads' =>
          { db, outcome := .suspended ⟨t.query, .readCache reads'⟩ }
      | _ => none
  | .proceed =>
      match t.phase with
      | .readCache reads => (allReplies reads).map fun newSubqueries =>
          match fetchQueryRequestResultsFromCache t.query newSubqueries true with
          | (some response, _) => { db, outcome := .resolved, responses := [response] }
          | (none, query) => { db, outcome := .suspended ⟨query, .saveQuery⟩ }
      | .saveQuery =>
          match db.insertQuery t.query with
          | none => some { db, outcome := .rejected }
          | some db' => some { db := db', outcome := .suspended ⟨t.query, .saveSubqueries⟩ }
      | .saveSubqueries =>
          match db.saveSubqueries t.query.subqueries with
          | none => some { db, outcome := .rejected }
          | some db' =>
              -- The events are published and not awaited, so the response does not wait for them.
              some { db := db'
                     outcome := .resolved
                     emitted := (targetSubqueries t.query).map (schedulePayload t.query.id)
                     responses := [fetchQueryRequestResultsFromDataSource t.query] }
  | _ => none

/-- The segments of `processNewQueryRequestAsync`, case by case. -/
inductive Creation.Fires (db : Database) (cache : ResourceCollection) (query : QueryEntity) :
    CreationPhase → Choice → Effect Creation → Prop
  | rejects (phase : CreationPhase) : Fires db cache query phase .fail { db, outcome := .rejected }
  | reads (reads reads' : List CacheRead) (j : ℕ) (h : answerRead cache reads j = some reads') :
      Fires db cache query (.readCache reads) (.read j)
        { db, outcome := .suspended ⟨query, .readCache reads'⟩ }
  | hit (reads : List CacheRead) (newSubqueries : List SubqueryDto)
      (h : allReplies reads = some newSubqueries)
      (hall : (newSubqueries.all fun r => r.result.truthy) = true) :
      Fires db cache query (.readCache reads) .proceed
        { db, outcome := .resolved
          responses := [{ id := .blank, subqueries := newSubqueries,
                          callbackUrl := query.callbackUrl, status := .COMPLETED }] }
  | miss (reads : List CacheRead) (newSubqueries : List SubqueryDto)
      (h : allReplies reads = some newSubqueries)
      (hall : ¬ (newSubqueries.all fun r => r.result.truthy) = true) :
      Fires db cache query (.readCache reads) .proceed
        { db, outcome := .suspended
            ⟨{ query with subqueries := newSubqueries.map (subqueryOfReply query) }, .saveQuery⟩ }
  | refusedQuery (h : query.callbackUrl.all storable = false) :
      Fires db cache query .saveQuery .proceed { db, outcome := .rejected }
  | savedQuery (h : query.callbackUrl.all storable = true) :
      Fires db cache query .saveQuery .proceed
        { db := db.saveQuery query, outcome := .suspended ⟨query, .saveSubqueries⟩ }
  | unsaved (h : db.saveSubqueries query.subqueries = none) :
      Fires db cache query .saveSubqueries .proceed { db, outcome := .rejected }
  | savedSubqueries (db' : Database) (h : db.saveSubqueries query.subqueries = some db') :
      Fires db cache query .saveSubqueries .proceed
        { db := db', outcome := .resolved
          emitted := (targetSubqueries query).map (schedulePayload query.id)
          responses := [fetchQueryRequestResultsFromDataSource query] }

/-- **What one segment of `processNewQueryRequestAsync` can do.** -/
theorem Creation.fires_of_step {db : Database} {cache : ResourceCollection} {t : Creation}
    {c : Choice} {e : Effect Creation} (h : t.step db cache c = some e) :
    Fires db cache t.query t.phase c e := by
  obtain ⟨query, phase⟩ := t
  cases c with
  | body data => cases h
  | draw id => cases h
  | fail => cases h; exact .rejects phase
  | read j =>
    cases phase with
    | saveQuery => cases h
    | saveSubqueries => cases h
    | readCache reads =>
      obtain ⟨reads', hreads, rfl⟩ := Option.map_eq_some_iff.mp h
      exact .reads reads reads' j hreads
  | proceed =>
    cases phase with
    | readCache reads =>
      obtain ⟨newSubqueries, hall, rfl⟩ := Option.map_eq_some_iff.mp h
      by_cases ht : (newSubqueries.all fun r => r.result.truthy) = true
      · simp only [fetchQueryRequestResultsFromCache, ht, Bool.not_true, Bool.or_true, if_true]
        exact .hit reads newSubqueries hall ht
      · simp only [fetchQueryRequestResultsFromCache, ht, Bool.not_true, Bool.or_false,
          Bool.false_eq_true, if_false]
        exact .miss reads newSubqueries hall ht
    | saveQuery =>
      simp only [step, Database.insertQuery] at h
      split_ifs at h with hurl
      · cases h; exact .savedQuery hurl
      · cases h; exact .refusedQuery (Bool.eq_false_of_not_eq_true hurl)
    | saveSubqueries =>
      cases hsave : db.saveSubqueries query.subqueries with
      | none => simp only [step, hsave] at h; cases h; exact .unsaved hsave
      | some db' => simp only [step, hsave] at h; cases h; exact .savedSubqueries db' hsave

/-! ### Handling a result -/

/-- Where an activation of `handleSubqueryResultAsync` waits, with the values of
the variables it still needs. -/
inductive HandlerPhase
  | findSubquery
  | findQuery (subquery : SubqueryEntity)
  | readCache (subquery : SubqueryEntity) (query : QueryEntity) (reads : List CacheRead)
  | saveQuery (subquery : SubqueryEntity) (query : QueryEntity) (cached : List SubqueryDto)
  | saveSubquery (subquery : SubqueryEntity) (updatedQuery : QueryEntity)
      (latestResponse : CreateQueryResponseDto)
  deriving DecidableEq, Repr

/-- An activation of `handleSubqueryResultAsync`. -/
structure Handler where
  dto : SubqueryDto
  phase : HandlerPhase
  deriving DecidableEq, Repr

/-- `latestResponse`: the subqueries as the cache has them, the one just received
replaced by its event. -/
def latestResponse (dto : SubqueryDto) (query : QueryEntity) (cached : List SubqueryDto) :
    CreateQueryResponseDto :=
  { id := .uuid query.id
    subqueries := cached.map fun q => if q.id = dto.id then dto else q
    callbackUrl := query.callbackUrl
    status := query.status }

/-- `haveAllResults`. -/
def haveAllResults (response : CreateQueryResponseDto) : Bool :=
  response.subqueries.all fun q => q.result.truthy

/-- The query entity the handler saves. -/
def updatedQuery (dto : SubqueryDto) (query : QueryEntity) (cached : List SubqueryDto) :
    QueryEntity :=
  { query with
    status := if haveAllResults (latestResponse dto query cached) then .COMPLETED else .PENDING }

/-- The POST to the callback, if the query is completed and has one. -/
def notifications (updatedQuery : QueryEntity) (latestResponse : CreateQueryResponseDto) :
    List Notification :=
  match updatedQuery.status, updatedQuery.callbackUrl with
  | .COMPLETED, some url => if url ≠ "" then [⟨url, latestResponse⟩] else []
  | _, _ => []

theorem body_of_mem_notifications {updatedQuery : QueryEntity}
    {latestResponse : CreateQueryResponseDto} {p : Notification}
    (h : p ∈ notifications updatedQuery latestResponse) : p.body = latestResponse := by
  unfold notifications at h
  split at h
  · split_ifs at h
    · obtain rfl := List.mem_singleton.mp h
      rfl
    · cases h
  · cases h

/-- One segment of `handleSubqueryResultAsync`. -/
def Handler.step (db : Database) (cache : ResourceCollection) (t : Handler) :
    Choice → Option (Effect Handler)
  | .fail => some { db, outcome := .rejected }
  | .read j =>
      match t.phase with
      | .readCache subquery query reads => (answerRead cache reads j).map fun reads' =>
          { db, outcome := .suspended ⟨t.dto, .readCache subquery query reads'⟩ }
      | _ => none
  | .proceed =>
      match t.phase with
      | .findSubquery =>
          match db.findSubquery t.dto.id with
          | none => some { db, outcome := .rejected }
          | some subquery =>
              some { db
                     outcome := .suspended
                       ⟨t.dto, .findQuery { subquery with result := t.dto.result }⟩ }
      | .findQuery subquery =>
          -- Looked up by the event's own `query_id`, not by the subquery's.
          match db.findQuery t.dto.queryId with
          | none => some { db, outcome := .rejected }
          | some query =>
              some { db
                     outcome := .suspended ⟨t.dto, .readCache subquery query (startReads query)⟩ }
      | .readCache subquery query reads => (allReplies reads).map fun newSubqueries =>
          let cacheResults := (fetchQueryRequestResultsFromCache query newSubqueries false).1
          { db, outcome := match cacheResults with
              | some response =>
                  .suspended ⟨t.dto, .saveQuery subquery query response.subqueries⟩
              | none => .rejected }
      | .saveQuery subquery query cached =>
          -- The query as it was loaded, with the status decided from the cache.
          some { db := db.saveQuery (updatedQuery t.dto query cached)
                 outcome := .suspended ⟨t.dto, .saveSubquery subquery
                   (updatedQuery t.dto query cached) (latestResponse t.dto query cached)⟩ }
      | .saveSubquery subquery updatedQuery latestResponse =>
          match db.saveSubquery subquery with
          | none => some { db, outcome := .rejected }
          | some db' =>
              -- The POST is not awaited either: whether it succeeds makes no difference.
              some { db := db', outcome := .resolved
                     posts := notifications updatedQuery latestResponse }
  | _ => none

/-- The segments of `handleSubqueryResultAsync`, case by case. -/
inductive Handler.Fires (db : Database) (cache : ResourceCollection) (dto : SubqueryDto) :
    HandlerPhase → Choice → Effect Handler → Prop
  | rejects (phase : HandlerPhase) : Fires db cache dto phase .fail { db, outcome := .rejected }
  | noSubquery (h : db.findSubquery dto.id = none) :
      Fires db cache dto .findSubquery .proceed { db, outcome := .rejected }
  | foundSubquery (e : SubqueryEntity) (h : db.findSubquery dto.id = some e) :
      Fires db cache dto .findSubquery .proceed
        { db, outcome := .suspended ⟨dto, .findQuery { e with result := dto.result }⟩ }
  | noQuery (subquery : SubqueryEntity) (h : db.findQuery dto.queryId = none) :
      Fires db cache dto (.findQuery subquery) .proceed { db, outcome := .rejected }
  | foundQuery (subquery : SubqueryEntity) (query : QueryEntity)
      (h : db.findQuery dto.queryId = some query) :
      Fires db cache dto (.findQuery subquery) .proceed
        { db, outcome := .suspended ⟨dto, .readCache subquery query (startReads query)⟩ }
  | reads (subquery : SubqueryEntity) (query : QueryEntity) (reads reads' : List CacheRead) (j : ℕ)
      (h : answerRead cache reads j = some reads') :
      Fires db cache dto (.readCache subquery query reads) (.read j)
        { db, outcome := .suspended ⟨dto, .readCache subquery query reads'⟩ }
  | replied (subquery : SubqueryEntity) (query : QueryEntity) (reads : List CacheRead)
      (cached : List SubqueryDto) (h : allReplies reads = some cached) :
      Fires db cache dto (.readCache subquery query reads) .proceed
        { db, outcome := .suspended ⟨dto, .saveQuery subquery query cached⟩ }
  | savedQuery (subquery : SubqueryEntity) (query : QueryEntity) (cached : List SubqueryDto) :
      Fires db cache dto (.saveQuery subquery query cached) .proceed
        { db := db.saveQuery (updatedQuery dto query cached)
          outcome := .suspended ⟨dto, .saveSubquery subquery (updatedQuery dto query cached)
            (latestResponse dto query cached)⟩ }
  | unsaved (subquery : SubqueryEntity) (updatedQuery : QueryEntity)
      (latestResponse : CreateQueryResponseDto) (h : db.saveSubquery subquery = none) :
      Fires db cache dto (.saveSubquery subquery updatedQuery latestResponse) .proceed
        { db, outcome := .rejected }
  | savedSubquery (subquery : SubqueryEntity) (updatedQuery : QueryEntity)
      (latestResponse : CreateQueryResponseDto) (db' : Database)
      (h : db.saveSubquery subquery = some db') :
      Fires db cache dto (.saveSubquery subquery updatedQuery latestResponse) .proceed
        { db := db', outcome := .resolved, posts := notifications updatedQuery latestResponse }

/-- **What one segment of `handleSubqueryResultAsync` can do.** -/
theorem Handler.fires_of_step {db : Database} {cache : ResourceCollection} {t : Handler}
    {c : Choice} {e : Effect Handler} (h : t.step db cache c = some e) :
    Fires db cache t.dto t.phase c e := by
  obtain ⟨dto, phase⟩ := t
  cases c with
  | body data => cases h
  | draw id => cases h
  | fail => cases h; exact .rejects phase
  | read j =>
    cases phase with
    | readCache subquery query reads =>
      obtain ⟨reads', hreads, rfl⟩ := Option.map_eq_some_iff.mp h
      exact .reads subquery query reads reads' j hreads
    | _ => cases h
  | proceed =>
    cases phase with
    | findSubquery =>
      cases hfind : db.findSubquery dto.id with
      | none => simp only [step, hfind] at h; cases h; exact .noSubquery hfind
      | some sub => simp only [step, hfind] at h; cases h; exact .foundSubquery sub hfind
    | findQuery subquery =>
      cases hfind : db.findQuery dto.queryId with
      | none => simp only [step, hfind] at h; cases h; exact .noQuery subquery hfind
      | some query => simp only [step, hfind] at h; cases h; exact .foundQuery subquery query hfind
    | readCache subquery query reads =>
      obtain ⟨cached, hall, rfl⟩ := Option.map_eq_some_iff.mp h
      exact .replied subquery query reads cached hall
    | saveQuery subquery query cached => cases h; exact .savedQuery subquery query cached
    | saveSubquery subquery updated latest =>
      cases hsave : db.saveSubquery subquery with
      | none => simp only [step, hsave] at h; cases h; exact .unsaved subquery updated latest hsave
      | some db' =>
        simp only [step, hsave] at h
        cases h
        exact .savedSubquery subquery updated latest db' hsave

/-! ### Polling -/

/-- `fetchQueryResultsAsync`: a query that does not exist is reported with the
sentinel id. -/
def fetchQueryResultsAsync (db : Database) (id : Uuid) : QueryDto :=
  match db.findQuery id with
  | some query =>
      { id := .uuid query.id
        subqueries := query.subqueries.map fun q =>
          { id := q.id, path := q.path, queryId := query.id, result := q.result }
        callbackUrl := query.callbackUrl
        status := query.status }
  | none => { id := .NOT_FOUND, subqueries := [], callbackUrl := some "", status := .PENDING }

end SwapiService
