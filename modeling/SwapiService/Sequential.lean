import SwapiService.ResultHandling

/-!
# Handlers run to completion

What a handler of a `RECEIVE` event does when nothing happens in between, as a function
of the databases.

## Main definitions

* `Handler.finish`, `CacheUpdate.finish` — what an activation has left to do.
* `handleSubqueryResult`, `updateCacheAtomically` — a whole activation.
* `deliverAtomically` — a delivery with the whole activation it starts.

## Main results

* `completes_iff`, `reachable_deliverAtomically` — these are what the segments amount to.
* `handleSubqueryResult_eq`, `status_decidedQuery_iff` — what a handler does, and the
  status it decides on.
* `contents_updateCacheAtomically` — what a cache update does.
-/

namespace SwapiService

open TaskPool Transition

/-! ### The query manager -/

/-- The replies, where the reads still open are answered from the cache. -/
def readAll (cache : ResourceCollection) (reads : List CacheRead) : List SubqueryDto :=
  reads.map fun r => r.reply.getD (readCacheAsync cache r.request)

/-- The two saves. -/
def finishSaves (db : Database) (dto : SubqueryDto) (subquery : SubqueryEntity)
    (query : QueryEntity) (cached : List SubqueryDto) : Database :=
  let saved := db.saveQuery (updatedQuery dto query cached)
  (saved.saveSubquery subquery).getD saved

/-- From the lookup of the query on. -/
def finishQuery (db : Database) (cache : ResourceCollection) (dto : SubqueryDto)
    (subquery : SubqueryEntity) : Database :=
  match db.findQuery dto.queryId with
  | none => db
  | some query => finishSaves db dto subquery query (readAll cache (startReads query))

/-- The database once an activation of `handleSubqueryResultAsync` is over. -/
def Handler.finish (db : Database) (cache : ResourceCollection) (t : Handler) : Database :=
  match t.phase with
  | .findSubquery =>
      match db.findSubquery t.dto.id with
      | none => db
      | some subquery => finishQuery db cache t.dto { subquery with result := t.dto.result }
  | .findQuery subquery => finishQuery db cache t.dto subquery
  | .readCache subquery query reads => finishSaves db t.dto subquery query (readAll cache reads)
  | .saveQuery subquery query cached => finishSaves db t.dto subquery query cached
  | .saveSubquery subquery _ _ => (db.saveSubquery subquery).getD db

/-- The database once an activation has come to the end of a segment and gone on. -/
def Effect.finish (cache : ResourceCollection) (e : Effect Handler) : Database :=
  match e.outcome with
  | .suspended t => t.finish e.db cache
  | .resolved => e.db
  | .rejected => e.db

/-- Answering a read from the cache changes nothing about the replies. -/
theorem readAll_answerRead {cache : ResourceCollection} {reads reads' : List CacheRead} {j : ℕ}
    (h : answerRead cache reads j = some reads') : readAll cache reads' = readAll cache reads := by
  obtain ⟨r, hr, hreply, rfl⟩ := exists_of_answerRead h
  obtain ⟨hj, rfl⟩ := List.getElem?_eq_some_iff.mp hr
  -- The reply given now is the one `readAll` would have given.
  unfold readAll
  apply List.ext_getElem
  · simp
  · intro i hi hi'
    rw [List.getElem_map, List.getElem_map, List.getElem_set]
    split_ifs with hij
    · subst hij
      rw [hreply]
      rfl
    · rfl

theorem readAll_of_allReplies {cache : ResourceCollection} {reads : List CacheRead}
    {cached : List SubqueryDto} (h : allReplies reads = some cached) :
    readAll cache reads = cached := by
  unfold allReplies at h
  rw [promiseAll_eq_some] at h
  induction reads generalizing cached with
  | nil =>
    cases cached with
    | nil => rfl
    | cons d ds => cases h
  | cons r reads ih =>
    cases cached with
    | nil => cases h
    | cons d ds =>
      rw [List.map_cons, List.map_cons, List.cons.injEq] at h
      obtain ⟨hreply, hrest⟩ := h
      show r.reply.getD _ :: readAll cache reads = d :: ds
      rw [hreply, ih hrest]
      rfl

/-- **A segment of a handler that does not fail** leaves what the activation amounts to. -/
theorem Handler.finish_of_step {db : Database} {cache : ResourceCollection} {t : Handler}
    {c : Choice} {e : Effect Handler} (hc : c ≠ .fail) (h : t.step db cache c = some e) :
    t.finish db cache = e.finish cache := by
  obtain ⟨dto, phase⟩ := t
  have hfires := Handler.fires_of_step h
  cases hfires with
  | rejects => exact absurd rfl hc
  | noSubquery hfind => simp only [finish, hfind, Effect.finish]
  | foundSubquery subquery hfind => simp only [finish, hfind, Effect.finish]
  | noQuery subquery hfind => simp only [finish, finishQuery, hfind, Effect.finish]
  | foundQuery subquery query hfind => simp only [finish, finishQuery, hfind, Effect.finish]
  -- The cache does not change in between, so answering early or late is the same.
  | reads subquery query reads reads' j hread =>
    simp only [finish, Effect.finish, readAll_answerRead hread]
  | replied subquery query reads cached hall =>
    simp only [finish, Effect.finish, readAll_of_allReplies hall]
  | savedQuery subquery query cached => rfl
  | unsaved subquery updated latest hsave =>
    simp only [finish, Effect.finish, hsave, Option.getD_none]
  | savedSubquery subquery updated latest db' hsave =>
    simp only [finish, Effect.finish, hsave, Option.getD_some]

/-- `handleSubqueryResultAsync` without anything in between. -/
def handleSubqueryResult (db : Database) (cache : ResourceCollection) (dto : SubqueryDto) :
    Database :=
  Handler.finish db cache ⟨dto, .findSubquery⟩

/-! ### The cache manager -/

/-- The cache once an activation of `updateCache` is over. -/
def CacheUpdate.finish (c : ResourceCollection) (u : CacheUpdate) : ResourceCollection :=
  match u.phase with
  | .findOne =>
      let resource := updatedResource (c.findOne u.dto.path) u.dto
      (c.save resource).getD c
  | .save resource => (c.save resource).getD c

theorem CacheUpdate.finish_of_step {c c' : ResourceCollection} {u : CacheUpdate} {ch : Choice}
    {out : Outcome CacheUpdate} (hch : ch ≠ .fail) (h : u.step c ch = some (c', out)) :
    (out = .resolved ∨ out = .rejected) ∧ u.finish c = c' ∨
      ∃ u', out = .suspended u' ∧ u.finish c = u'.finish c' := by
  obtain ⟨dto, phase⟩ := u
  have hfires := CacheUpdate.fires_of_step h
  cases hfires with
  | rejects => exact absurd rfl hch
  | found => exact .inr ⟨_, rfl, rfl⟩
  | saved resource c' hsave =>
    refine .inl ⟨.inl rfl, ?_⟩
    simp only [finish, hsave, Option.getD_some]
  | duplicate resource hsave =>
    refine .inl ⟨.inr rfl, ?_⟩
    simp only [finish, hsave, Option.getD_none]

/-- `updateCache` without anything in between. -/
def updateCacheAtomically (c : ResourceCollection) (dto : SubqueryDto) : ResourceCollection :=
  match updateCache dto with
  | .suspended u => u.finish c
  | _ => c

/-- What is cached for a path. -/
def ResourceCollection.contents (c : ResourceCollection) (path : String) : Option Json :=
  (c.findOne path).map SwapiResourceEntity.cachedResult

theorem ResourceCollection.cached_eq_contents (c : ResourceCollection) (path : String) :
    c.cached path = (c.contents path).elim .null Json.orNull := by
  unfold cached contents
  cases c.findOne path <;> rfl

/-- What was just found can be saved. -/
theorem ResourceCollection.exists_save (c : ResourceCollection) (dto : SubqueryDto) :
    ∃ c', c.save (updatedResource (c.findOne dto.path) dto) = some c' := by
  unfold save updatedResource findOne
  cases hlookup : c.docs.lookup dto.path with
  | none => exact ⟨_, by simp only [Option.map_none, Option.bind_none]; rfl⟩
  | some d =>
    exact ⟨_, by simp only [Option.map_some, Option.bind_some, if_true]; rfl⟩

/-- **What `updateCache` does to the cache.** -/
theorem contents_updateCacheAtomically {dto : SubqueryDto} (h : dto.result.truthy = true)
    (c : ResourceCollection) (path : String) :
    (updateCacheAtomically c dto).contents path
      = if path = dto.path then some dto.result else c.contents path := by
  obtain ⟨c', hsave⟩ := c.exists_save dto
  have hfinish : updateCacheAtomically c dto = c' := by
    unfold updateCacheAtomically updateCache
    rw [if_pos h]
    show (c.save (updatedResource (c.findOne dto.path) dto)).getD c = c'
    rw [hsave, Option.getD_some]
  obtain ⟨⟨i, hown⟩, hother⟩ := ResourceCollection.lookup_save hsave
  have hown : c'.docs.lookup dto.path = some ⟨i, dto.result⟩ := hown
  rw [hfinish]
  unfold ResourceCollection.contents ResourceCollection.findOne
  split_ifs with hpath
  · subst hpath
    rw [hown]
    rfl
  · rw [hother path hpath]

/-- The query as a handler loads it. -/
def loadedQuery (db : Database) (queryId : Uuid) (qrow : QueryRow) : QueryEntity :=
  ⟨queryId, db.subqueriesOf queryId, qrow.callbackUrl, qrow.status⟩

/-- The query as a handler saves it that reads the cache at once. -/
def decidedQuery (db : Database) (cache : ResourceCollection) (dto : SubqueryDto)
    (qrow : QueryRow) : QueryEntity :=
  updatedQuery dto (loadedQuery db dto.queryId qrow)
    (readAll cache (startReads (loadedQuery db dto.queryId qrow)))

/-- **What a handler does to the database**, its subquery and its query being stored. -/
theorem handleSubqueryResult_eq {db : Database} {cache : ResourceCollection} {dto : SubqueryDto}
    {row : SubqueryRow} {qrow : QueryRow} (hrow : db.subqueries.lookup dto.id = some row)
    (hqrow : db.queries.lookup dto.queryId = some qrow) :
    handleSubqueryResult db cache dto =
      { db.saveQuery (decidedQuery db cache dto qrow) with
        subqueries := db.subqueries.insert dto.id { row with result := dto.result } } := by
  have hsubquery : db.findSubquery dto.id = some (Database.toEntity dto.id row) :=
    Database.findSubquery_eq_some.mpr ⟨row, hrow, rfl⟩
  have hquery : db.findQuery dto.queryId = some (loadedQuery db dto.queryId qrow) :=
    Database.findQuery_eq_some.mpr ⟨qrow, hqrow, rfl⟩
  have hsave : ∀ query : QueryEntity, (db.saveQuery query).saveSubquery
      { Database.toEntity dto.id row with result := dto.result } = some { db.saveQuery query with
        subqueries := db.subqueries.insert dto.id { row with result := dto.result } } :=
    fun query => Database.saveSubquery_of_row rfl hrow
  unfold handleSubqueryResult Handler.finish finishQuery
  simp only [hsubquery, hquery]
  exact congrArg (Option.getD · (db.saveQuery (decidedQuery db cache dto qrow))) (hsave _)

/-- What a handler reads: for every row of the query, what is cached for its path. -/
theorem mem_readAll_startReads {db : Database} {cache : ResourceCollection} {queryId : Uuid}
    {qrow : QueryRow} {q : SubqueryDto} :
    q ∈ readAll cache (startReads (loadedQuery db queryId qrow)) ↔
      ∃ id row, db.subqueries.lookup id = some row ∧ row.queryId = queryId ∧
        q = ⟨id, row.path, queryId, cache.cached row.path⟩ := by
  simp only [readAll, startReads, loadedQuery, List.map_map, List.mem_map,
    Database.mem_subqueriesOf]
  constructor
  · rintro ⟨e, ⟨row, hrow, hq, he⟩, rfl⟩
    refine ⟨e.id, row, hrow, hq, ?_⟩
    rw [he]
    rfl
  · rintro ⟨id, row, hrow, hq, rfl⟩
    exact ⟨Database.toEntity id row, ⟨row, hrow, hq, rfl⟩, rfl⟩

/-- Every subquery of the query has a result where a handler looks for it: the one of the
event has it there, the others in the cache. -/
def ResultsFound (db : Database) (cache : ResourceCollection) (dto : SubqueryDto) : Prop :=
  ∀ id row, db.subqueries.lookup id = some row → row.queryId = dto.queryId →
    (if id = dto.id then dto.result else cache.cached row.path).truthy = true

/-- The status a handler decides on, for any event. -/
theorem status_decidedQuery_iff_resultsFound {db : Database} {cache : ResourceCollection}
    {dto : SubqueryDto} {qrow : QueryRow} :
    (decidedQuery db cache dto qrow).status = .COMPLETED ↔ ResultsFound db cache dto := by
  have hstatus : (decidedQuery db cache dto qrow).status = .COMPLETED ↔
      ∀ q ∈ readAll cache (startReads (loadedQuery db dto.queryId qrow)),
        (if q.id = dto.id then dto else q).result.truthy = true := by
    simp only [decidedQuery, updatedQuery, haveAllResults, latestResponse, List.all_map,
      List.all_eq_true, Function.comp_apply, ite_eq_left_iff, reduceCtorEq, imp_false, not_not]
  rw [hstatus]
  constructor
  · intro hall id row hrow hq
    have hfound := hall _ (mem_readAll_startReads.mpr ⟨id, row, hrow, hq, rfl⟩)
    rwa [apply_ite SubqueryDto.result] at hfound
  · intro hall q hq
    obtain ⟨id, row, hrow, hqid, rfl⟩ := mem_readAll_startReads.mp hq
    rw [apply_ite SubqueryDto.result]
    exact hall id row hrow hqid

/-- Every other subquery of the query is cached. -/
def OthersCached (db : Database) (cache : ResourceCollection) (dto : SubqueryDto) : Prop :=
  ∀ id row, db.subqueries.lookup id = some row → row.queryId = dto.queryId → id ≠ dto.id →
    (cache.cached row.path).truthy = true

/-- **The status a handler decides on**: completed just in case every other subquery of
the query is cached. -/
theorem status_decidedQuery_iff {db : Database} {cache : ResourceCollection}
    {dto : SubqueryDto} {row : SubqueryRow} {qrow : QueryRow}
    (hrow : db.subqueries.lookup dto.id = some row) (hq : row.queryId = dto.queryId)
    (htruthy : dto.result.truthy = true) :
    (decidedQuery db cache dto qrow).status = .COMPLETED ↔ OthersCached db cache dto := by
  -- The subquery of the event is one of its query, hence among those read.
  have hown : dto.id ∈ (readAll cache (startReads (loadedQuery db dto.queryId qrow))).map
      SubqueryDto.id :=
    List.mem_map.mpr ⟨_, mem_readAll_startReads.mpr ⟨dto.id, row, hrow, hq, rfl⟩, rfl⟩
  have hstatus : (decidedQuery db cache dto qrow).status = .COMPLETED ↔ _ :=
    status_updatedQuery_iff hown
  rw [hstatus, and_iff_right htruthy]
  constructor
  · intro hall id row' hrow' hq' hid
    exact hall _ (mem_readAll_startReads.mpr ⟨id, row', hrow', hq', rfl⟩) hid
  · intro hall q hq' hid
    obtain ⟨id, row', hrow', hqid, rfl⟩ := mem_readAll_startReads.mp hq'
    exact hall id row' hrow' hqid hid

/-! ### Small steps and big ones -/

/-- What a task has left to do. -/
def ResultTask.finish (s : ResultStore) : ResultTask → ResultStore
  | .handler t => { s with db := t.finish s.db s.cache }
  | .updater u => { s with cache := u.finish s.cache }

/-- The reads that are still open. -/
def openReads (reads : List CacheRead) : ℕ := reads.countP fun r => r.reply.isNone

theorem openReads_answerRead {cache : ResourceCollection} {reads reads' : List CacheRead} {j : ℕ}
    (h : answerRead cache reads j = some reads') : openReads reads' < openReads reads := by
  obtain ⟨r, hr, hreply, rfl⟩ := exists_of_answerRead h
  obtain ⟨hj, rfl⟩ := List.getElem?_eq_some_iff.mp hr
  -- The read answered is no longer counted.
  have hopen : reads[j].reply.isNone = true := by rw [hreply]; rfl
  have hpos : 0 < openReads reads := List.countP_pos_iff.mpr ⟨_, List.getElem_mem hj, hopen⟩
  unfold openReads at hpos ⊢
  rw [List.countP_set hj, if_pos hopen]
  simp only [Option.isNone_some, Bool.false_eq_true, if_false]
  omega

/-- Either a read can be answered, or all have been. -/
theorem exists_answerRead (cache : ResourceCollection) (reads : List CacheRead) :
    (∃ j reads', answerRead cache reads j = some reads') ∨
      ∃ cached, allReplies reads = some cached := by
  by_cases hopen : ∃ r ∈ reads, r.reply = none
  · obtain ⟨r, hr, hreply⟩ := hopen
    obtain ⟨j, hj⟩ := List.mem_iff_getElem?.mp hr
    refine .inl ⟨j, reads.set j { r with reply := some (readCacheAsync cache r.request) }, ?_⟩
    rw [answerRead, hj, Option.bind_some, hreply]
  · refine .inr ⟨readAll cache reads, promiseAll_eq_some.mpr ?_⟩
    unfold readAll
    rw [List.map_map]
    refine List.map_congr_left fun r hr => ?_
    obtain ⟨d, hd⟩ := Option.ne_none_iff_exists'.mp fun hnone => hopen ⟨r, hr, hnone⟩
    rw [Function.comp_apply, hd, Option.getD_some]

/-- How much a task has left to do.  The reads of a handler are counted apart, since
there are as many as its query has subqueries. -/
def ResultTask.rank : ResultTask → ℕ × ℕ
  | .handler ⟨_, .findSubquery⟩ => (4, 0)
  | .handler ⟨_, .findQuery _⟩ => (3, 0)
  | .handler ⟨_, .readCache _ _ reads⟩ => (2, openReads reads)
  | .handler ⟨_, .saveQuery _ _ _⟩ => (1, 0)
  | .handler ⟨_, .saveSubquery _ _ _⟩ => (0, 0)
  | .updater ⟨_, .findOne⟩ => (1, 0)
  | .updater ⟨_, .save _⟩ => (0, 0)

theorem wellFounded_rank : WellFounded (Prod.Lex (· < · : ℕ → ℕ → Prop) (· < · : ℕ → ℕ → Prop)) :=
  wellFounded_lt.prod_lex wellFounded_lt

theorem resultReact_handler {s : ResultStore} {t : Handler} {c : Choice} {e : Effect Handler}
    (h : t.step s.db s.cache c = some e) :
    resultReact s (.handler t) c = some ({ s with db := e.db }, e.outcome.tasks .handler) := by
  rw [resultReact, h, Option.map_some]

theorem resultReact_updater {s : ResultStore} {u : CacheUpdate} {c : Choice}
    {r : ResourceCollection × Outcome CacheUpdate} (h : u.step s.cache c = some r) :
    resultReact s (.updater u) c = some ({ s with cache := r.1 }, r.2.tasks .updater) := by
  rw [resultReact, h, Option.map_some]

/-- A handler is never stuck. -/
theorem Handler.exists_step (db : Database) (cache : ResourceCollection) (t : Handler) :
    ∃ c e, c ≠ .fail ∧ t.step db cache c = some e := by
  obtain ⟨dto, phase⟩ := t
  cases phase with
  | findSubquery =>
    refine ⟨.proceed, ?_⟩
    cases hfind : db.findSubquery dto.id with
    | none => exact ⟨_, by decide, by simp only [step, hfind]; rfl⟩
    | some subquery => exact ⟨_, by decide, by simp only [step, hfind]; rfl⟩
  | findQuery subquery =>
    refine ⟨.proceed, ?_⟩
    cases hfind : db.findQuery dto.queryId with
    | none => exact ⟨_, by decide, by simp only [step, hfind]; rfl⟩
    | some query => exact ⟨_, by decide, by simp only [step, hfind]; rfl⟩
  | readCache subquery query reads =>
    rcases exists_answerRead cache reads with ⟨j, reads', hread⟩ | ⟨cached, hall⟩
    · exact ⟨.read j, _, by simp, by simp only [step, hread, Option.map_some]; rfl⟩
    · exact ⟨.proceed, _, by decide, by simp only [step, hall, Option.map_some]; rfl⟩
  | saveQuery subquery query cached => exact ⟨.proceed, _, by decide, rfl⟩
  | saveSubquery subquery updated latest =>
    refine ⟨.proceed, ?_⟩
    cases hsave : db.saveSubquery subquery with
    | none => exact ⟨_, by decide, by simp only [step, hsave]; rfl⟩
    | some db' => exact ⟨_, by decide, by simp only [step, hsave]; rfl⟩

/-- Every segment brings a handler nearer to its end. -/
theorem Handler.rank_lt_of_step {db : Database} {cache : ResourceCollection} {t t' : Handler}
    {c : Choice} {e : Effect Handler} (h : t.step db cache c = some e)
    (ht : e.outcome = .suspended t') :
    Prod.Lex (· < ·) (· < ·) (ResultTask.handler t').rank (ResultTask.handler t).rank := by
  obtain ⟨dto, phase⟩ := t
  have hfires := Handler.fires_of_step h
  cases hfires with
  | foundSubquery subquery hfind => cases ht; exact .left _ _ (by decide)
  | foundQuery subquery query hfind => cases ht; exact .left _ _ (by decide)
  | reads subquery query reads reads' j hread =>
    cases ht
    exact .right _ (openReads_answerRead hread)
  | replied subquery query reads cached hall => cases ht; exact .left _ _ (by decide)
  | savedQuery subquery query cached => cases ht; exact .left _ _ (by decide)
  | _ => cases ht

/-- A cache update is never stuck either. -/
theorem CacheUpdate.exists_step (c : ResourceCollection) (u : CacheUpdate) :
    ∃ ch r, ch ≠ .fail ∧ u.step c ch = some r := by
  obtain ⟨dto, phase⟩ := u
  refine ⟨.proceed, ?_⟩
  cases phase with
  | findOne => exact ⟨_, by decide, rfl⟩
  | save resource =>
    cases hsave : c.save resource with
    | none => exact ⟨_, by decide, by simp only [step, hsave]; rfl⟩
    | some c' => exact ⟨_, by decide, by simp only [step, hsave]; rfl⟩

theorem CacheUpdate.rank_lt_of_step {c c' : ResourceCollection} {u u' : CacheUpdate} {ch : Choice}
    (h : u.step c ch = some (c', .suspended u')) :
    Prod.Lex (· < ·) (· < ·) (ResultTask.updater u').rank (ResultTask.updater u).rank := by
  obtain ⟨dto, phase⟩ := u
  have hfires := CacheUpdate.fires_of_step h
  cases hfires with
  | found => exact .left _ _ (by decide)

/-- A segment that does not fail leaves what a task amounts to. -/
theorem ResultTask.finish_of_react {s s' : ResultStore} {t : ResultTask} {c : Choice}
    {ts : List ResultTask} (hc : c ≠ .fail) (h : resultReact s t c = some (s', ts)) :
    ts = [] ∧ t.finish s = s' ∨ ∃ t', ts = [t'] ∧ t.finish s = t'.finish s' ∧
      Prod.Lex (· < ·) (· < ·) t'.rank t.rank := by
  cases t with
  | handler t =>
    obtain ⟨e, he, h⟩ := Option.map_eq_some_iff.mp h
    cases h
    have hfinish := Handler.finish_of_step hc he
    have hrank : ∀ t', e.outcome = .suspended t' →
        Prod.Lex (· < ·) (· < ·) (ResultTask.handler t').rank (ResultTask.handler t).rank :=
      fun _ => Handler.rank_lt_of_step he
    obtain ⟨db, out, emitted, responses, posts⟩ := e
    show _ ∧ { s with db := t.finish s.db s.cache } = _ ∨ _
    cases out with
    | suspended t' =>
      exact .inr ⟨_, rfl, by simp only [finish, hfinish, Effect.finish], hrank t' rfl⟩
    | resolved => exact .inl ⟨rfl, by simp only [hfinish, Effect.finish]⟩
    | rejected => exact .inl ⟨rfl, by simp only [hfinish, Effect.finish]⟩
  | updater u =>
    obtain ⟨⟨cache, out⟩, he, h⟩ := Option.map_eq_some_iff.mp h
    cases h
    rcases CacheUpdate.finish_of_step hc he with ⟨hout, hfinish⟩ | ⟨u', rfl, hfinish⟩
    · refine .inl ⟨?_, by simp only [finish, hfinish]⟩
      rcases hout with rfl | rfl <;> rfl
    · exact .inr ⟨_, rfl, by simp only [finish, hfinish], CacheUpdate.rank_lt_of_step he⟩

/-- A task is never stuck. -/
theorem ResultTask.exists_react (s : ResultStore) (t : ResultTask) :
    ∃ c r, c ≠ .fail ∧ resultReact s t c = some r := by
  cases t with
  | handler t =>
    obtain ⟨c, e, hc, he⟩ := t.exists_step s.db s.cache
    exact ⟨c, _, hc, resultReact_handler he⟩
  | updater u =>
    obtain ⟨c, r, hc, hr⟩ := u.exists_step s.cache
    exact ⟨c, _, hc, resultReact_updater hr⟩

/-- **Small steps amount to big ones**: without a failing call, a task run to completion
does what it has left to do, and it can be. -/
theorem completes_iff {s s' : ResultStore} {t : ResultTask} :
    resultHandling.Completes (· ≠ .fail) s t s' ↔ s' = t.finish s := by
  have hensures : resultHandling.Ensures (· ≠ .fail) (· = t.finish s) s t :=
    Machine.ensures_eq (f := fun s t => t.finish s) wellFounded_rank ResultTask.rank
      (fun s t => t.exists_react s) ResultTask.finish_of_react s t
  constructor
  · exact hensures.of_completes
  · -- The run there is leads to that store, there being no other.
    rintro rfl
    obtain ⟨s', hs'⟩ := hensures.exists_completes
    obtain rfl := hensures.of_completes hs'
    exact hs'

/-- A delivery whose handler runs to completion at once. -/
def deliverAtomically (s : ResultStore) : Delivery → ResultStore
  | .toQueryManager dto => { s with db := handleSubqueryResult s.db s.cache dto }
  | .toCacheManager dto => { s with cache := updateCacheAtomically s.cache dto }

/-- It is a delivery of the machine followed by a run of the handler to completion. -/
theorem deliverAtomically_iff {s s₁ s' : ResultStore} {d : Delivery} {ts : List ResultTask}
    (h : deliver s d = some (s₁, ts)) :
    (ts = [] ∧ s' = s₁ ∨ ∃ t, ts = [t] ∧ resultHandling.Completes (· ≠ .fail) s₁ t s') ↔
      s' = deliverAtomically s d := by
  cases d with
  | toQueryManager dto =>
    simp only [deliver] at h
    split_ifs at h
    cases h
    simp [completes_iff, deliverAtomically, handleSubqueryResult, ResultTask.finish]
  | toCacheManager dto =>
    cases h
    cases hupdate : updateCache dto with
    | suspended u =>
      simp [completes_iff, deliverAtomically, updateCacheAtomically, hupdate, ResultTask.finish]
    | resolved => simp [deliverAtomically, updateCacheAtomically, hupdate]
    | rejected => simp [deliverAtomically, updateCacheAtomically, hupdate]

/-- Such deliveries are runs of the machine. -/
theorem reachable_deliverAtomically {s s₁ : ResultStore} {d : Delivery} {ts : List ResultTask}
    (h : deliver s d = some (s₁, ts)) :
    Reachable resultHandling.step ⟨s, []⟩ ⟨deliverAtomically s d, []⟩ := by
  have henv : resultHandling.step ⟨s, []⟩ (.env d) = some ⟨s₁, ts⟩ := by
    show (deliver s d).map _ = _
    rw [h]
    rfl
  refine ((Reachable.refl _).tail henv).trans ?_
  rcases (deliverAtomically_iff h).mpr rfl with ⟨rfl, hs⟩ | ⟨t, rfl, hcompletes⟩
  · rw [hs]
    exact Reachable.refl _
  · exact hcompletes.reachable

end SwapiService
