import SwapiService.QueryManager

/-!
# What the activations of the query manager assert about the database

The handler of a result looks its subquery and its query up by two independent
ids and never checks that they belong together.  What keeps it safe is that every
message carries an id whose row has the message's path and belongs to the query
the message names.  This module states those assertions and shows that the
segments of the two operations establish them for what comes next, stay within
the frame of their own ids, and leave the assertions about other ids alone.

## Main definitions

* `Refers db dto`, `Awaits db dto` — the row a DTO names exists and matches it;
  and it has no result yet.
* `HandlerPhase.Ok`, `Handler.Ok` — what a handler asserts at each `await`.
* `Creation.Ok` — what a creation asserts.

## Main results

* `Handler.frame_of_fires`, `Creation.frame_of_fires` — the frames.
* `Handler.ok_of_fires`, `Creation.ok_of_fires` — the assertions of the next
  segment.
-/

namespace SwapiService

open TaskPool Database

/-! ### Messages and rows -/

/-- The row a DTO names exists, with its path, and belongs to the persisted query
the DTO names. -/
def Refers (db : Database) (dto : SubqueryDto) : Prop :=
  ∃ row, db.subqueries.lookup dto.id = some row ∧ row.path = dto.path ∧
    row.queryId = dto.queryId ∧ dto.queryId ∈ db.queries

/-- The row a DTO names exists, matches it, and has no result yet. -/
def Awaits (db : Database) (dto : SubqueryDto) : Prop :=
  ∃ row, db.subqueries.lookup dto.id = some row ∧ row.path = dto.path ∧
    row.queryId = dto.queryId ∧ dto.queryId ∈ db.queries ∧ row.result = .null

theorem Awaits.refers {db : Database} {dto : SubqueryDto} (h : Awaits db dto) : Refers db dto := by
  obtain ⟨row, hrow, hpath, hq, hmem, -⟩ := h
  exact ⟨row, hrow, hpath, hq, hmem⟩

theorem Refers.frame {ids : List Uuid} {db db' : Database} {dto : SubqueryDto}
    (h : Refers db dto) (hf : Frame ids db db') : Refers db' dto := by
  obtain ⟨row, hrow, hpath, hq, hmem⟩ := h
  obtain ⟨row', hrow', hpath', hq'⟩ := hf.keeps _ row hrow
  exact ⟨row', hrow', hpath'.trans hpath, hq'.trans hq, hf.mem_queries hmem⟩

theorem Awaits.frame {ids : List Uuid} {db db' : Database} {dto : SubqueryDto}
    (h : Awaits db dto) (hf : Frame ids db db') (hid : dto.id ∉ ids) : Awaits db' dto := by
  obtain ⟨row, hrow, hpath, hq, hmem, hnull⟩ := h
  exact ⟨row, by rw [hf.other _ hid, hrow], hpath, hq, hf.mem_queries hmem, hnull⟩

/-- Only the result of a DTO plays no part. -/
theorem Awaits.congr {db : Database} {dto dto' : SubqueryDto} (h : Awaits db dto)
    (hid : dto'.id = dto.id) (hpath : dto'.path = dto.path) (hq : dto'.queryId = dto.queryId) :
    Awaits db dto' := by
  unfold Awaits at h ⊢
  rwa [hid, hpath, hq]

/-! ### Cache replies -/

/-- A reply is its request with a result, and the result satisfies `V` at the
path. -/
def CacheRead.Ok (V : String → Json → Prop) (r : CacheRead) : Prop :=
  ∀ d, r.reply = some d → d = { r.request with result := d.result } ∧ V r.request.path d.result

theorem ok_startReads (V : String → Json → Prop) (query : QueryEntity) :
    ∀ r ∈ startReads query, r.Ok V := by
  intro r hr d hd
  obtain ⟨q, -, rfl⟩ := List.mem_map.mp hr
  cases hd

/-- Answering a read changes no request, and what holds of all cached results
holds of all replies. -/
theorem ok_answerRead {V : String → Json → Prop} {cache : ResourceCollection}
    (hV : ∀ path, V path (cache.cached path)) {reads reads' : List CacheRead} {j : ℕ}
    (h : answerRead cache reads j = some reads') :
    reads'.map CacheRead.request = reads.map CacheRead.request ∧
      ((∀ r ∈ reads, r.Ok V) → ∀ r ∈ reads', r.Ok V) := by
  obtain ⟨r, hr, -, rfl⟩ := exists_of_answerRead h
  obtain ⟨hj, -⟩ := List.getElem?_eq_some_iff.mp hr
  constructor
  · apply List.ext_getElem?
    intro k
    rw [List.getElem?_map, List.getElem?_map]
    -- The read that is answered keeps its request.
    by_cases hk : j = k
    · subst hk
      rw [List.getElem?_set_self hj, hr]
      rfl
    · rw [List.getElem?_set_ne hk]
  · intro hok r' hr'
    rcases List.mem_or_eq_of_mem_set hr' with hr' | rfl
    · exact hok r' hr'
    · intro d hd
      obtain rfl := Option.some.inj hd
      exact ⟨rfl, hV _⟩

/-- Once all reads are answered, the replies are the requests, position by
position, each with a result that satisfies `V`. -/
theorem ok_allReplies {V : String → Json → Prop} {reads : List CacheRead}
    {replies : List SubqueryDto} (hok : ∀ r ∈ reads, r.Ok V) (h : allReplies reads = some replies) :
    replies.map SubqueryDto.id = reads.map (fun r => r.request.id) ∧
      ∀ d ∈ replies, ∃ r ∈ reads,
        d = { r.request with result := d.result } ∧ V d.path d.result := by
  rw [allReplies, promiseAll_eq_some] at h
  induction reads generalizing replies with
  | nil =>
    obtain rfl : replies = [] := by simpa using h.symm
    simp
  | cons r reads ih =>
    cases replies with
    | nil => simp at h
    | cons d replies =>
      rw [List.map_cons, List.map_cons, List.cons.injEq] at h
      obtain ⟨hd, hrest⟩ := h
      obtain ⟨hids, hall⟩ := ih (fun r' hr' => hok r' (List.mem_cons_of_mem _ hr')) hrest
      obtain ⟨heq, hv⟩ := hok r List.mem_cons_self d hd
      have hid : d.id = r.request.id := by rw [heq]
      have hpath : d.path = r.request.path := by rw [heq]
      refine ⟨by rw [List.map_cons, List.map_cons, hid, hids], fun d' hd' => ?_⟩
      rcases List.mem_cons.mp hd' with rfl | hd'
      · exact ⟨r, List.mem_cons_self, heq, hpath ▸ hv⟩
      · obtain ⟨r', hr', hd⟩ := hall d' hd'
        exact ⟨r', List.mem_cons_of_mem _ hr', hd⟩

/-- A cached result as the services receive it: truthy, or `null`. -/
def TruthyOrNull (_path : String) (r : Json) : Prop := r.truthy = true ∨ r = .null

theorem truthyOrNull_cached (cache : ResourceCollection) (path : String) :
    TruthyOrNull path (cache.cached path) := by
  by_cases h : (cache.cached path).truthy = true
  · exact .inl h
  · exact .inr (ResourceCollection.cached_eq_null h)

/-! ### Handlers -/

/-- The query entity a handler holds: the one its event names, with the stored
callback. -/
def HoldsQuery (db : Database) (dto : SubqueryDto) (query : QueryEntity) : Prop :=
  query.id = dto.queryId ∧
    ∃ row, db.queries.lookup query.id = some row ∧ row.callbackUrl = query.callbackUrl

/-- The subquery entity a handler saves: the row of its event, with the event's
result. -/
def HoldsSubquery (dto : SubqueryDto) (subquery : SubqueryEntity) : Prop :=
  subquery = ⟨dto.id, dto.path, none, dto.result⟩

/-- What a handler asserts about the values it holds: its entities, and that its own
subquery is among those it reads the cache for. -/
def HandlerPhase.Ok (db : Database) (dto : SubqueryDto) : HandlerPhase → Prop
  | .findSubquery => True
  | .findQuery subquery => HoldsSubquery dto subquery
  | .readCache subquery query reads => HoldsSubquery dto subquery ∧ HoldsQuery db dto query ∧
      dto.id ∈ reads.map (fun r => r.request.id) ∧ ∀ r ∈ reads, r.Ok TruthyOrNull
  | .saveQuery subquery query cached => HoldsSubquery dto subquery ∧ HoldsQuery db dto query ∧
      dto.id ∈ cached.map SubqueryDto.id
  | .saveSubquery subquery updatedQuery latestResponse =>
      HoldsSubquery dto subquery ∧ HoldsQuery db dto updatedQuery ∧
        latestResponse.id = .uuid updatedQuery.id

/-- What a handler asserts: its event names a row, and it holds the right entities. -/
def Handler.Ok (db : Database) (t : Handler) : Prop := Refers db t.dto ∧ t.phase.Ok db t.dto

theorem HoldsQuery.frame {ids : List Uuid} {db db' : Database} {dto : SubqueryDto}
    {query : QueryEntity} (h : HoldsQuery db dto query) (hf : Frame ids db db') :
    HoldsQuery db' dto query := by
  obtain ⟨hid, row, hrow, hcb⟩ := h
  obtain ⟨row', hrow', hcb'⟩ := hf.query _ row hrow
  exact ⟨hid, row', hrow', hcb'.trans hcb⟩

theorem HandlerPhase.Ok.frame {ids : List Uuid} {db db' : Database} {dto : SubqueryDto}
    {phase : HandlerPhase} (h : phase.Ok db dto) (hf : Frame ids db db') : phase.Ok db' dto := by
  cases phase with
  | findSubquery => trivial
  | findQuery subquery => exact h
  | readCache subquery query reads => exact ⟨h.1, h.2.1.frame hf, h.2.2⟩
  | saveQuery subquery query cached => exact ⟨h.1, h.2.1.frame hf, h.2.2⟩
  | saveSubquery subquery updatedQuery latestResponse => exact ⟨h.1, h.2.1.frame hf, h.2.2⟩

/-- **A handler's assertion survives steps within any frame.** -/
theorem Handler.Ok.frame {ids : List Uuid} {db db' : Database} {t : Handler} (h : t.Ok db)
    (hf : Frame ids db db') : t.Ok db' :=
  ⟨h.1.frame hf, h.2.frame hf⟩

/-- The query a handler saves is the stored one but for its status. -/
theorem HoldsQuery.updatedQuery {db : Database} {dto : SubqueryDto} {query : QueryEntity}
    (h : HoldsQuery db dto query) (cached : List SubqueryDto) :
    HoldsQuery db dto (updatedQuery dto query cached) := h

/-- Saving the query of a row touches no other id. -/
theorem Refers.frame_saveQuery {db : Database} {dto : SubqueryDto} {query : QueryEntity}
    (h : Refers db dto) (hq : HoldsQuery db dto query) : Frame [] db (db.saveQuery query) := by
  obtain ⟨sub, hsub, -, hsq, -⟩ := h
  obtain ⟨hid, row, hrow, hcb⟩ := hq
  exact frame_saveQuery_of_row hrow hcb hsub (hsq.trans hid.symm)

/-- **Neither `findOneOrFail` of a handler can fail**, and its last save succeeds. -/
theorem Handler.Ok.finds {db : Database} {t : Handler} (h : t.Ok db) :
    (∃ e, db.findSubquery t.dto.id = some e) ∧ (∃ q, db.findQuery t.dto.queryId = some q) ∧
      ∀ {subquery updated latest}, t.phase = .saveSubquery subquery updated latest →
        ∃ db', db.saveSubquery subquery = some db' := by
  obtain ⟨⟨row, hrow, -, -, hmem⟩, hphase⟩ := h
  obtain ⟨qrow, hqrow⟩ := exists_lookup hmem
  refine ⟨⟨_, findSubquery_eq_some.mpr ⟨row, hrow, rfl⟩⟩,
    ⟨_, findQuery_eq_some.mpr ⟨qrow, hqrow, rfl⟩⟩, fun hp => ?_⟩
  rw [hp] at hphase
  obtain ⟨rfl, -⟩ := hphase
  exact ⟨_, saveSubquery_of_row rfl hrow⟩

/-- **What the last save of a handler does**: its row gets the event's result, and
nothing else changes. -/
theorem Handler.Ok.saved {db db' : Database} {dto : SubqueryDto} {subquery : SubqueryEntity}
    {updated : QueryEntity} {latest : CreateQueryResponseDto}
    (hok : (⟨dto, .saveSubquery subquery updated latest⟩ : Handler).Ok db)
    (h : db.saveSubquery subquery = some db') : db'.queries = db.queries ∧
      (∀ id ≠ dto.id, db'.subqueries.lookup id = db.subqueries.lookup id) ∧
      db'.subqueries.lookup dto.id = some ⟨dto.path, dto.queryId, dto.result⟩ := by
  obtain ⟨⟨row, hrow, -, hq, -⟩, hsub, -⟩ := hok
  rw [hsub, saveSubquery_of_row rfl hrow] at h
  obtain rfl := Option.some.inj h
  refine ⟨rfl, fun id hid => AList.lookup_insert_ne hid, ?_⟩
  rw [← hq]
  exact AList.lookup_insert _

section HandlerSegments

variable {db : Database} {cache : ResourceCollection} {dto : SubqueryDto} {phase : HandlerPhase}
  {c : Choice} {e : Effect Handler}

/-- **A handler stays within the frame of its own row.** -/
theorem Handler.frame_of_fires (hok : (⟨dto, phase⟩ : Handler).Ok db)
    (h : Fires db cache dto phase c e) : Frame [dto.id] db e.db := by
  cases h with
  | savedQuery subquery query cached =>
    obtain ⟨href, -, hq, -⟩ := hok
    exact (href.frame_saveQuery (hq.updatedQuery cached)).mono (List.nil_subset _)
  | savedSubquery subquery updated latest db' hsave =>
    obtain ⟨⟨row, hrow, hpath, -⟩, hsub, -⟩ := hok
    rw [hsub] at hsave
    exact frame_saveSubquery rfl hrow hpath hsave
  | _ => exact Frame.refl _ _

/-- A handler that goes on works on the same event, and has touched no row yet. -/
theorem Handler.suspended_of_fires (hok : (⟨dto, phase⟩ : Handler).Ok db)
    (h : Fires db cache dto phase c e) {t : Handler} (ht : e.outcome = .suspended t) :
    t.dto = dto ∧ Frame [] db e.db := by
  cases h with
  | rejects => cases ht
  | noSubquery => cases ht
  | noQuery => cases ht
  | unsaved => cases ht
  | savedSubquery => cases ht
  | savedQuery subquery query cached =>
    obtain rfl := Outcome.suspended.inj ht
    obtain ⟨href, -, hq, -⟩ := hok
    exact ⟨rfl, href.frame_saveQuery (hq.updatedQuery cached)⟩
  | _ => obtain rfl := Outcome.suspended.inj ht; exact ⟨rfl, Frame.refl _ _⟩

/-- **The assertion of the next segment.** -/
theorem Handler.ok_of_fires (hok : (⟨dto, phase⟩ : Handler).Ok db)
    (h : Fires db cache dto phase c e) {t : Handler} (ht : e.outcome = .suspended t) :
    t.Ok e.db := by
  have hf := (suspended_of_fires hok h ht).2
  obtain ⟨href, hphase⟩ := hok
  cases h with
  | rejects => cases ht
  | noSubquery => cases ht
  | noQuery => cases ht
  | unsaved => cases ht
  | savedSubquery => cases ht
  | foundSubquery subquery hfind =>
    obtain rfl := Outcome.suspended.inj ht
    refine ⟨href, ?_⟩
    -- The entity it has found is the row its event refers to.
    obtain ⟨row, hrow, rfl⟩ := findSubquery_eq_some.mp hfind
    obtain ⟨row', hrow', hpath, -⟩ := href
    rw [hrow] at hrow'
    obtain rfl := Option.some.inj hrow'
    show HoldsSubquery dto { toEntity dto.id row with result := dto.result }
    simp only [HoldsSubquery, toEntity, hpath]
  | foundQuery subquery query hfind =>
    obtain rfl := Outcome.suspended.inj ht
    obtain ⟨qrow, hqrow, rfl⟩ := findQuery_eq_some.mp hfind
    refine ⟨href, hphase, ⟨rfl, qrow, hqrow, rfl⟩, ?_, ok_startReads _ _⟩
    -- Its own row belongs to the query, hence is among those loaded with it.
    obtain ⟨row, hrow, -, hq, -⟩ := href
    have hown : toEntity dto.id row ∈ db.subqueriesOf dto.queryId :=
      mem_subqueriesOf.mpr ⟨row, hrow, hq, rfl⟩
    rw [startReads, List.map_map]
    exact List.mem_map.mpr ⟨_, hown, rfl⟩
  | reads subquery query reads reads' j hans =>
    obtain rfl := Outcome.suspended.inj ht
    obtain ⟨hsub, hq, hown, hreads⟩ := hphase
    obtain ⟨hreq, hans⟩ := ok_answerRead (truthyOrNull_cached cache) hans
    refine ⟨href, hsub, hq, ?_, hans hreads⟩
    have hmap := congrArg (List.map SubqueryDto.id) hreq
    rw [List.map_map, List.map_map] at hmap
    rw [← Function.comp_def SubqueryDto.id CacheRead.request, hmap]
    exact hown
  | replied subquery query reads cached hall =>
    obtain rfl := Outcome.suspended.inj ht
    obtain ⟨hsub, hq, hown, hreads⟩ := hphase
    refine ⟨href, hsub, hq, ?_⟩
    rw [(ok_allReplies hreads hall).1]
    exact hown
  | savedQuery subquery query cached =>
    obtain rfl := Outcome.suspended.inj ht
    obtain ⟨hsub, hq, -⟩ := hphase
    exact ⟨href.frame hf, hsub, (hq.updatedQuery cached).frame hf, rfl⟩

/-- A handler publishes nothing. -/
theorem Handler.emitted_of_fires (h : Fires db cache dto phase c e) : e.emitted = [] := by
  cases h <;> rfl

end HandlerSegments

/-! ### Scheduling -/

/-- The subqueries a creation schedules: those among `targetSubqueries` that are
subqueries at all. -/
def scheduled (query : QueryEntity) : List SubqueryEntity :=
  PlainObject.collected SubqueryEntity.path (missingSubqueries query)

theorem mem_missingSubqueries {query : QueryEntity} {q : SubqueryEntity} :
    q ∈ missingSubqueries query ↔ q ∈ query.subqueries ∧ ¬ q.result.truthy = true := by
  simp [missingSubqueries]

theorem mem_of_mem_scheduled {query : QueryEntity} {q : SubqueryEntity}
    (h : q ∈ scheduled query) : q ∈ query.subqueries ∧ ¬ q.result.truthy = true :=
  mem_missingSubqueries.mp (PlainObject.collected_subset _ _ h)

/-- The ids in the events of a query are those of the subqueries it schedules. -/
theorem ids_scheduled (query : QueryEntity) :
    (((targetSubqueries query).map (schedulePayload query.id)).flatMap fun p => p.id.toList)
      = (scheduled query).map SubqueryEntity.id := by
  unfold scheduled PlainObject.collected targetSubqueries
  induction (PlainObject.collect SubqueryEntity.path (missingSubqueries query)).values with
  | nil => rfl
  | cons v vs ih =>
    rw [List.map_cons, List.flatMap_cons, ih]
    cases v with
    | value q => rfl
    | builtin name => rfl

/-- One event for each id. -/
theorem nodup_map_id_scheduled {query : QueryEntity}
    (h : (query.subqueries.map SubqueryEntity.id).Nodup) :
    ((scheduled query).map SubqueryEntity.id).Nodup := by
  have hpaths := PlainObject.nodup_map_collected SubqueryEntity.path (missingSubqueries query)
  refine (List.Nodup.of_map _ hpaths).map_on fun a ha b hb hab => ?_
  exact List.inj_on_of_nodup_map h (mem_of_mem_scheduled ha).1 (mem_of_mem_scheduled hb).1 hab

/-- An event with an id names a subquery that is scheduled, and passes the
validation. -/
theorem of_mem_scheduled {query : QueryEntity} {p : SubqueryPayload} {id : Uuid}
    (hp : p ∈ (targetSubqueries query).map (schedulePayload query.id)) (h : id ∈ p.id) :
    ∃ q ∈ scheduled query, id = q.id ∧
      p.validate = some { id := q.id, path := q.path, queryId := query.id } := by
  obtain ⟨v, hv, rfl⟩ := List.mem_map.mp hp
  cases v with
  | builtin name => cases h
  | value q => exact ⟨q, List.mem_filterMap.mpr ⟨_, hv, rfl⟩, (Option.some.inj h).symm, rfl⟩

/-! ### Creations -/

/-- The ids a creation has drawn. -/
def Creation.owned (t : Creation) : List Uuid :=
  t.query.id :: t.query.subqueries.map SubqueryEntity.id

/-- What a creation asserts: its ids are new, its rows belong to its query, whose row
is stored just before theirs, and their results come from the cache. -/
structure Creation.Ok (db : Database) (t : Creation) : Prop where
  query : ∀ e ∈ t.query.subqueries, e.query = some t.query.id
  status : t.query.status = .PENDING
  result : ∀ e ∈ t.query.subqueries, TruthyOrNull e.path e.result
  fresh : ∀ id ∈ t.owned, id ∉ db.subqueries
  childless : ∀ id row, db.subqueries.lookup id = some row → row.queryId ≠ t.query.id
  unstored : t.phase ≠ .saveSubqueries → t.query.id ∉ db.queries
  stored : t.phase = .saveSubqueries →
    db.queries.lookup t.query.id = some ⟨t.query.callbackUrl, .PENDING⟩
  reads : ∀ reads, t.phase = .readCache reads →
    reads.map (fun r => r.request.id) = t.query.subqueries.map SubqueryEntity.id ∧
      ∀ r ∈ reads, r.Ok TruthyOrNull

theorem Creation.id_mem_owned {t : Creation} {e : SubqueryEntity} (he : e ∈ t.query.subqueries) :
    e.id ∈ t.owned :=
  List.mem_cons_of_mem _ (List.mem_map_of_mem he)

/-- The generated query: its subqueries carry the drawn ids and the requested
paths, and no result. -/
theorem subqueries_generateQueryEntity (dto : CreateQueryRequestDto) (ids : List Uuid)
    (queryId : Uuid) :
    (generateQueryEntityFromCreateDtoAsync dto ids queryId).subqueries
      = (ids.zip dto.subqueries).map fun p => ⟨p.1, p.2, some queryId, .null⟩ :=
  List.map_uncurry_zip_eq_zipWith.symm

theorem map_id_generateQueryEntity {dto : CreateQueryRequestDto} {ids : List Uuid}
    (queryId : Uuid) (h : ids.length = dto.subqueries.length) :
    (generateQueryEntityFromCreateDtoAsync dto ids queryId).subqueries.map SubqueryEntity.id
      = ids := by
  rw [subqueries_generateQueryEntity, List.map_map]
  exact List.map_fst_zip (le_of_eq h)

theorem map_path_generateQueryEntity {dto : CreateQueryRequestDto} {ids : List Uuid}
    (queryId : Uuid) (h : ids.length = dto.subqueries.length) :
    (generateQueryEntityFromCreateDtoAsync dto ids queryId).subqueries.map SubqueryEntity.path
      = dto.subqueries := by
  rw [subqueries_generateQueryEntity, List.map_map]
  exact List.map_snd_zip (le_of_eq h.symm)

theorem mem_generateQueryEntity {dto : CreateQueryRequestDto} {ids : List Uuid} {queryId : Uuid}
    {e : SubqueryEntity}
    (h : e ∈ (generateQueryEntityFromCreateDtoAsync dto ids queryId).subqueries) :
    e.id ∈ ids ∧ e.query = some queryId ∧ e.result = .null := by
  rw [subqueries_generateQueryEntity] at h
  obtain ⟨⟨id, path⟩, hp, rfl⟩ := List.mem_map.mp h
  exact ⟨(List.of_mem_zip hp).1, rfl, rfl⟩

/-- **A creation starts with its assertion**, provided its ids are new. -/
theorem Creation.ok_start {db : Database} {dto : CreateQueryRequestDto} {ids : List Uuid}
    {queryId : Uuid} (hq : queryId ∉ db.queries) (hids : ∀ id ∈ queryId :: ids, id ∉ db.subqueries)
    (hrows : ∀ id row, db.subqueries.lookup id = some row → row.queryId ≠ queryId) :
    (processNewQueryRequestAsync
      (generateQueryEntityFromCreateDtoAsync dto ids queryId)).Ok db where
  query _ he := (mem_generateQueryEntity he).2.1
  status := rfl
  result _ he := .inr (mem_generateQueryEntity he).2.2
  fresh id hid := by
    rcases List.mem_cons.mp hid with rfl | hid
    · exact hids _ List.mem_cons_self
    · obtain ⟨e, he, rfl⟩ := List.mem_map.mp hid
      exact hids e.id (List.mem_cons_of_mem _ (mem_generateQueryEntity he).1)
  childless := hrows
  unstored _ := hq
  stored h := by cases h
  reads reads h := by
    obtain rfl := CreationPhase.readCache.inj h
    refine ⟨?_, ok_startReads _ _⟩
    rw [startReads, List.map_map]
    rfl

/-- **A creation's assertion survives steps on other ids.** -/
theorem Creation.Ok.frame {ids : List Uuid} {db db' : Database} {t : Creation} (h : t.Ok db)
    (hf : Frame ids db db') (hdis : ids.Disjoint t.owned) : t.Ok db' := by
  have hqid : t.query.id ∉ ids := fun hmem => hdis hmem List.mem_cons_self
  refine ⟨h.query, h.status, h.result, fun id hid => ?_, fun id row' hrow' => ?_,
    fun hp hmem => ?_, fun hp => ?_, h.reads⟩
  · have hother := hf.other id fun hmem => hdis hmem hid
    rw [← AList.lookup_eq_none, hother, AList.lookup_eq_none]
    exact h.fresh id hid
  · -- A row that is new belongs to a query of the step, which is not this one.
    rcases hf.newRow id row' hrow' with ⟨row, hrow, hq⟩ | ⟨hq, -⟩
    · rw [← hq]
      exact h.childless id row hrow
    · exact fun heq => hqid (heq ▸ hq)
  · rcases hf.newQuery _ hmem with hmem | hmem
    · exact h.unstored hp hmem
    · exact hqid hmem
  · rw [hf.childless _ hqid h.childless]
    exact h.stored hp

section CreationSegments

variable {db : Database} {cache : ResourceCollection} {query : QueryEntity} {phase : CreationPhase}
  {c : Choice} {e : Effect Creation}

/-- **What the last save of a creation does**: if the paths can be stored, it succeeds,
and stores the rows of the query and nothing else. -/
theorem Creation.Ok.saves (hok : (⟨query, .saveSubqueries⟩ : Creation).Ok db)
    (hnd : (⟨query, .saveSubqueries⟩ : Creation).owned.Nodup)
    (hpaths : ∀ e ∈ query.subqueries, storable e.path = true) :
    ∃ db', db.saveSubqueries query.subqueries = some db' ∧ db'.queries = db.queries ∧
      (∀ id ∉ query.subqueries.map SubqueryEntity.id,
        db'.subqueries.lookup id = db.subqueries.lookup id) ∧
      ∀ e ∈ query.subqueries, db'.subqueries.lookup e.id = some ⟨e.path, query.id, e.result⟩ := by
  have hmem : query.id ∈ db.queries := mem_of_lookup (hok.stored rfl)
  exact saveSubqueries_of_fresh hmem hok.query (List.nodup_cons.mp hnd).2 hpaths

theorem Creation.Ok.saved (hok : (⟨query, .saveSubqueries⟩ : Creation).Ok db)
    (hnd : (⟨query, .saveSubqueries⟩ : Creation).owned.Nodup) {db' : Database}
    (h : db.saveSubqueries query.subqueries = some db') : db'.queries = db.queries ∧
      (∀ id ∉ query.subqueries.map SubqueryEntity.id,
        db'.subqueries.lookup id = db.subqueries.lookup id) ∧
      ∀ e ∈ query.subqueries, db'.subqueries.lookup e.id = some ⟨e.path, query.id, e.result⟩ := by
  obtain ⟨db'', h', hsaved⟩ := hok.saves hnd (storable_of_saveSubqueries hok.query h)
  rw [h] at h'
  obtain rfl := Option.some.inj h'
  exact hsaved

/-- **A creation stays within the frame of its own ids.** -/
theorem Creation.frame_of_fires (hok : (⟨query, phase⟩ : Creation).Ok db)
    (hnd : (⟨query, phase⟩ : Creation).owned.Nodup) (h : Fires db cache query phase c e) :
    Frame (⟨query, phase⟩ : Creation).owned db e.db := by
  cases h with
  | savedQuery =>
    have hnew : query.id ∉ db.queries := hok.unstored (by simp)
    have hframe : Frame [query.id] db (db.saveQuery query) := frame_saveQuery fun row hrow =>
      absurd (mem_of_lookup hrow) hnew
    exact hframe.mono (by simp [owned])
  | savedSubqueries db' hsave =>
    obtain ⟨hqueries, hother, hrows⟩ := hok.saved hnd hsave
    have hmem : query.id ∈ db.queries := mem_of_lookup (hok.stored rfl)
    exact frame_saveSubqueries hmem hqueries hother hrows fun q hq =>
      hok.fresh q.id (id_mem_owned hq)
  | _ => exact Frame.refl _ _

/-- **The assertion of the next segment**, which owns the ids its predecessor
owned. -/
theorem Creation.ok_of_fires (hok : (⟨query, phase⟩ : Creation).Ok db)
    (h : Fires db cache query phase c e) {t : Creation} (ht : e.outcome = .suspended t) :
    t.Ok e.db ∧ t.owned = (⟨query, phase⟩ : Creation).owned := by
  cases h with
  | rejects => cases ht
  | hit => cases ht
  | refusedQuery => cases ht
  | unsaved => cases ht
  | savedSubqueries => cases ht
  | reads reads reads' j hans =>
    obtain rfl := Outcome.suspended.inj ht
    obtain ⟨hids, hreads⟩ := hok.reads reads rfl
    obtain ⟨hreq, hans⟩ := ok_answerRead (truthyOrNull_cached cache) hans
    refine ⟨⟨hok.query, hok.status, hok.result, hok.fresh, hok.childless,
      fun _ => hok.unstored (by simp), (fun hp => nomatch hp), fun rs hrs => ?_⟩, rfl⟩
    obtain rfl := CreationPhase.readCache.inj hrs
    refine ⟨?_, hans hreads⟩
    have hmap := congrArg (List.map SubqueryDto.id) hreq
    rw [List.map_map, List.map_map] at hmap
    exact hmap.trans hids
  | miss reads newSubqueries hall hmiss =>
    obtain rfl := Outcome.suspended.inj ht
    obtain ⟨hids, hreads⟩ := hok.reads reads rfl
    obtain ⟨hids', hall⟩ := ok_allReplies hreads hall
    -- The rebuilt subqueries carry the ids of the ones they replace.
    have hsame : (newSubqueries.map (subqueryOfReply query)).map SubqueryEntity.id
        = query.subqueries.map SubqueryEntity.id := by
      rw [List.map_map, ← hids, ← hids']
      rfl
    refine ⟨⟨?_, hok.status, ?_, ?_, hok.childless, fun _ => hok.unstored (by simp),
      (fun hp => nomatch hp), (fun rs hrs => nomatch hrs)⟩, ?_⟩
    · intro q hq
      obtain ⟨d, -, rfl⟩ := List.mem_map.mp hq
      rfl
    · intro q hq
      obtain ⟨d, hd, rfl⟩ := List.mem_map.mp hq
      obtain ⟨-, -, -, hv⟩ := hall d hd
      exact hv
    · intro id hid
      refine hok.fresh id ?_
      show id ∈ query.id :: query.subqueries.map SubqueryEntity.id
      rw [← hsame]
      exact hid
    · show query.id :: _ = query.id :: _
      rw [hsame]
  | savedQuery =>
    obtain rfl := Outcome.suspended.inj ht
    refine ⟨⟨hok.query, hok.status, hok.result, hok.fresh, hok.childless,
      fun hp => absurd rfl hp, fun _ => ?_, (fun rs hrs => nomatch hrs)⟩, rfl⟩
    rw [lookup_saveQuery, ← hok.status]

/-- A creation publishes only when it ends. -/
theorem Creation.emitted_of_fires (h : Fires db cache query phase c e) {t : Creation}
    (ht : e.outcome = .suspended t) : e.emitted = [] := by
  cases h with
  | savedSubqueries => cases ht
  | _ => rfl

/-- **The events a creation publishes name its own rows**: distinct ones, stored
and without a result. -/
theorem Creation.awaits_of_fires (hok : (⟨query, phase⟩ : Creation).Ok db)
    (hnd : (⟨query, phase⟩ : Creation).owned.Nodup) (h : Fires db cache query phase c e) :
    (e.emitted.flatMap fun p => p.id.toList).Nodup ∧
      (e.emitted.flatMap fun p => p.id.toList) ⊆ (⟨query, phase⟩ : Creation).owned ∧
      ∀ p ∈ e.emitted, ∀ id ∈ p.id,
        ∃ dto, p.validate = some dto ∧ dto.id = id ∧ Awaits e.db dto := by
  cases h with
  | savedSubqueries db' hsave =>
    obtain ⟨hqueries, -, hrows⟩ := hok.saved hnd hsave
    have hnd' : (query.subqueries.map SubqueryEntity.id).Nodup := (List.nodup_cons.mp hnd).2
    have hmem : query.id ∈ db.queries := mem_of_lookup (hok.stored rfl)
    refine ⟨?_, ?_, ?_⟩
    · rw [ids_scheduled]
      exact nodup_map_id_scheduled hnd'
    · rw [ids_scheduled]
      intro id hid
      obtain ⟨q, hq, rfl⟩ := List.mem_map.mp hid
      exact id_mem_owned (mem_of_mem_scheduled hq).1
    · intro p hp id hid
      obtain ⟨q, hq, rfl, hval⟩ := of_mem_scheduled hp hid
      -- What is scheduled has no truthy result, and a reply is truthy or `null`.
      obtain ⟨hqmem, hfalsy⟩ := mem_of_mem_scheduled hq
      refine ⟨_, hval, rfl, _, hrows q hqmem, rfl, rfl, hqueries ▸ hmem, ?_⟩
      rcases hok.result q hqmem with ht | hnull
      · exact absurd ht hfalsy
      · exact hnull
  | _ => exact ⟨List.nodup_nil, List.nil_subset _, by simp⟩

end CreationSegments

end SwapiService
