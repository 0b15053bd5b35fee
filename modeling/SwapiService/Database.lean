import Mathlib.Data.List.AList
import SwapiService.Dto

/-!
# The PostgreSQL database of the query manager

The tables `query` and `subquery`, and the repository calls the query manager
makes on them.  A save writes the own columns of the entity it is given onto the
row with that id, inserting the row if there is none; no relation cascades.  Of a row
that is there it writes what has changed.  PostgreSQL has no text with U+0000 in it, and
refuses a row with one.

## Main definitions

* `QueryEntity`, `SubqueryEntity` — the entities of `postgres/entities`.
* `Database` — the two tables, keyed by id.
* `storable`, `CreateQueryRequestDto.Storable` — the texts PostgreSQL stores.
* `findQuery`, `findSubquery` — `findOneOrFail` by id.
* `insertQuery`, `saveQuery`, `saveSubquery`, `saveSubqueries` — the saves.
* `Frame ids db db'` — what a step that only touches the ids `ids` may do.

## Main results

* `frame_saveQuery`, `frame_saveSubquery`, `frame_saveSubqueries` — each save
  stays within the frame of the ids it is given.
* `saveSubqueries_of_fresh` — saving the rows of a new query with storable paths
  succeeds, and stores exactly those rows.
* `storable_of_saveSubqueries` — with any other path it is refused.
-/

namespace SwapiService

/-! ### Entities and rows -/

/-- `SubqueryEntity`.  Of the entity it belongs to only the id is used; it is
absent on an entity loaded without that relation. -/
structure SubqueryEntity where
  id : Uuid
  path : String
  query : Option Uuid
  result : Json
  deriving DecidableEq, Repr

/-- `QueryEntity`, with its eagerly loaded subqueries. -/
structure QueryEntity where
  id : Uuid
  subqueries : List SubqueryEntity
  callbackUrl : Option String
  status : Status
  deriving DecidableEq, Repr

/-- The columns of a row of the table `query`. -/
structure QueryRow where
  callbackUrl : Option String
  status : Status
  deriving DecidableEq, Repr

/-- The columns of a row of the table `subquery`. -/
structure SubqueryRow where
  path : String
  queryId : Uuid
  result : Json
  deriving DecidableEq, Repr

/-- The database: two tables with primary key `id`. -/
structure Database where
  queries : AList fun _ : Uuid => QueryRow
  subqueries : AList fun _ : Uuid => SubqueryRow

/-- The texts PostgreSQL stores: those without U+0000. -/
def storable (text : String) : Bool := text.toList.all fun ch => ch.toNat != 0

/-- The rows of a new query can be stored. -/
def QueryEntity.Storable (query : QueryEntity) : Prop :=
  ∀ e ∈ query.subqueries, storable e.path = true

/-- All texts of a request can be stored. -/
def CreateQueryRequestDto.Storable (dto : CreateQueryRequestDto) : Prop :=
  dto.callbackUrl.all storable = true ∧ ∀ path ∈ dto.subqueries, storable path = true

namespace Database

/-- The database without a row. -/
def empty : Database := ⟨∅, ∅⟩

/-! ### Repository calls -/

/-- The entity of a subquery row, loaded without its query. -/
def toEntity (id : Uuid) (row : SubqueryRow) : SubqueryEntity :=
  { id, path := row.path, query := none, result := row.result }

/-- The subqueries of a query, as the eager relation loads them. -/
def subqueriesOf (db : Database) (queryId : Uuid) : List SubqueryEntity :=
  (db.subqueries.entries.filter fun e => e.2.queryId = queryId).map fun e => toEntity e.1 e.2

/-- `subqueryRepository.findOneOrFail({ where: { id } })`. -/
def findSubquery (db : Database) (id : Uuid) : Option SubqueryEntity :=
  (db.subqueries.lookup id).map (toEntity id)

/-- `queryRepository.findOneOrFail({ where: { id } })`. -/
def findQuery (db : Database) (id : Uuid) : Option QueryEntity :=
  (db.queries.lookup id).map fun row =>
    { id, subqueries := db.subqueriesOf id, callbackUrl := row.callbackUrl, status := row.status }

/-- `queryRepository.save` of a query that was loaded: its status may have changed, and
no text is written. -/
def saveQuery (db : Database) (query : QueryEntity) : Database :=
  { db with queries := db.queries.insert query.id ⟨query.callbackUrl, query.status⟩ }

/-- `queryRepository.save` of a new query, whose `callback_url` is written. -/
def insertQuery (db : Database) (query : QueryEntity) : Option Database :=
  if query.callbackUrl.all storable then some (db.saveQuery query) else none

/-- `subqueryRepository.save` of one entity.  Without its query an entity can only
be saved onto an existing row, whose `query_id` is kept: the column is not
nullable.  With one, the foreign key must name an existing query. -/
def saveSubquery (db : Database) (e : SubqueryEntity) : Option Database :=
  match e.query, db.subqueries.lookup e.id with
  -- An insert without a `query_id`.
  | none, none => none
  -- Loaded from its row, of which only the result may have changed.
  | none, some row =>
      some { db with
        subqueries := db.subqueries.insert e.id { row with path := e.path, result := e.result } }
  -- New, with a path that is written.
  | some queryId, _ =>
      if queryId ∈ db.queries ∧ storable e.path = true then
        some { db with subqueries := db.subqueries.insert e.id ⟨e.path, queryId, e.result⟩ }
      else none

/-- `subqueryRepository.save` of a list of entities: all of them or none. -/
def saveSubqueries (db : Database) (es : List SubqueryEntity) : Option Database :=
  es.foldlM saveSubquery db

/-! ### Reading back -/

/-- What is found in a table is in it. -/
theorem mem_of_lookup {α : Type} {table : AList fun _ : Uuid => α} {id : Uuid} {row : α}
    (h : table.lookup id = some row) : id ∈ table :=
  AList.lookup_isSome.mp (Option.isSome_of_eq_some h)

theorem exists_lookup {α : Type} {table : AList fun _ : Uuid => α} {id : Uuid} (h : id ∈ table) :
    ∃ row, table.lookup id = some row :=
  Option.isSome_iff_exists.mp (AList.lookup_isSome.mpr h)

theorem mem_subqueriesOf {db : Database} {queryId : Uuid} {e : SubqueryEntity} :
    e ∈ db.subqueriesOf queryId ↔
      ∃ row, db.subqueries.lookup e.id = some row ∧ row.queryId = queryId ∧
        e = toEntity e.id row := by
  simp only [subqueriesOf, List.mem_map, List.mem_filter, decide_eq_true_eq]
  constructor
  · rintro ⟨⟨id, row⟩, ⟨hmem, hq⟩, rfl⟩
    exact ⟨row, AList.mem_lookup_iff.mpr hmem, hq, rfl⟩
  · rintro ⟨row, hrow, hq, he⟩
    exact ⟨⟨e.id, row⟩, ⟨AList.mem_lookup_iff.mp hrow, hq⟩, he.symm⟩

theorem findSubquery_eq_some {db : Database} {id : Uuid} {e : SubqueryEntity} :
    db.findSubquery id = some e ↔
      ∃ row, db.subqueries.lookup id = some row ∧ e = toEntity id row := by
  rw [findSubquery, Option.map_eq_some_iff]
  exact exists_congr fun row => and_congr_right fun _ => eq_comm

theorem findQuery_eq_some {db : Database} {id : Uuid} {query : QueryEntity} :
    db.findQuery id = some query ↔
      ∃ row, db.queries.lookup id = some row ∧
        query = ⟨id, db.subqueriesOf id, row.callbackUrl, row.status⟩ := by
  rw [findQuery, Option.map_eq_some_iff]
  exact exists_congr fun row => and_congr_right fun _ => eq_comm

@[simp] theorem lookup_saveQuery (db : Database) (query : QueryEntity) :
    (db.saveQuery query).queries.lookup query.id
      = some ⟨query.callbackUrl, query.status⟩ := AList.lookup_insert _

theorem lookup_saveQuery_ne (db : Database) {query : QueryEntity} {id : Uuid}
    (h : id ≠ query.id) :
    (db.saveQuery query).queries.lookup id = db.queries.lookup id := AList.lookup_insert_ne h

/-- A subquery save leaves the table of queries alone. -/
theorem queries_saveSubquery {db db' : Database} {e : SubqueryEntity}
    (h : db.saveSubquery e = some db') : db'.queries = db.queries := by
  unfold saveSubquery at h
  split at h
  · simp at h
  · obtain rfl := Option.some.inj h; rfl
  · split_ifs at h
    obtain rfl := Option.some.inj h; rfl

/-- An entity loaded without its query is saved onto its row. -/
theorem saveSubquery_of_row {db : Database} {e : SubqueryEntity} {row : SubqueryRow}
    (hq : e.query = none) (hrow : db.subqueries.lookup e.id = some row) :
    db.saveSubquery e = some { db with
      subqueries :=
        db.subqueries.insert e.id { row with path := e.path, result := e.result } } := by
  simp only [saveSubquery, hq, hrow]

/-- An entity of a persisted query is saved with all its columns, if its path can be
stored. -/
theorem saveSubquery_of_query {db : Database} {e : SubqueryEntity} {queryId : Uuid}
    (hq : e.query = some queryId) (hmem : queryId ∈ db.queries) (hpath : storable e.path = true) :
    db.saveSubquery e = some { db with
      subqueries := db.subqueries.insert e.id ⟨e.path, queryId, e.result⟩ } := by
  simp only [saveSubquery, hq, if_pos (And.intro hmem hpath)]

/-- A new entity is refused if its path cannot be stored. -/
theorem storable_of_saveSubquery {db db' : Database} {e : SubqueryEntity} {queryId : Uuid}
    (hq : e.query = some queryId) (h : db.saveSubquery e = some db') : storable e.path = true := by
  simp only [saveSubquery, hq] at h
  split_ifs at h with hsaves
  exact hsaves.2

/-! ### Frames -/

/-- What a step that only touches the ids `ids` may do: other subquery rows are
left alone, existing rows keep their path and their query, existing queries keep
their callback, a new query has one of the ids, and a new row belongs to a
persisted query with one of them.  A query with another id and without rows is
left alone. -/
structure Frame (ids : List Uuid) (db db' : Database) : Prop where
  other : ∀ id ∉ ids, db'.subqueries.lookup id = db.subqueries.lookup id
  keeps : ∀ id row, db.subqueries.lookup id = some row →
    ∃ row', db'.subqueries.lookup id = some row' ∧ row'.path = row.path ∧
      row'.queryId = row.queryId
  newRow : ∀ id row', db'.subqueries.lookup id = some row' →
    (∃ row, db.subqueries.lookup id = some row ∧ row.queryId = row'.queryId) ∨
      row'.queryId ∈ ids ∧ row'.queryId ∈ db.queries
  query : ∀ id row, db.queries.lookup id = some row →
    ∃ row', db'.queries.lookup id = some row' ∧ row'.callbackUrl = row.callbackUrl
  newQuery : ∀ id ∈ db'.queries, id ∈ db.queries ∨ id ∈ ids
  childless : ∀ id ∉ ids, (∀ i row, db.subqueries.lookup i = some row → row.queryId ≠ id) →
    db'.queries.lookup id = db.queries.lookup id

theorem Frame.refl (ids : List Uuid) (db : Database) : Frame ids db db where
  other _ _ := rfl
  keeps _ row h := ⟨row, h, rfl, rfl⟩
  newRow _ row h := .inl ⟨row, h, rfl⟩
  query _ row h := ⟨row, h, rfl⟩
  newQuery _ h := .inl h
  childless _ _ _ := rfl

/-- Frames grow with their ids. -/
theorem Frame.mono {ids ids' : List Uuid} {db db' : Database} (h : Frame ids db db')
    (hsub : ids ⊆ ids') : Frame ids' db db' where
  other id hid := h.other id fun hmem => hid (hsub hmem)
  keeps := h.keeps
  newRow id row' hrow' := (h.newRow id row' hrow').imp_right fun hq => ⟨hsub hq.1, hq.2⟩
  query := h.query
  newQuery id hid := (h.newQuery id hid).imp_right fun hmem => hsub hmem
  childless id hid := h.childless id fun hmem => hid (hsub hmem)

theorem Frame.mem_queries {ids : List Uuid} {db db' : Database} (h : Frame ids db db')
    {id : Uuid} (hid : id ∈ db.queries) : id ∈ db'.queries := by
  obtain ⟨row, hrow⟩ := exists_lookup hid
  obtain ⟨row', hrow', -⟩ := h.query id row hrow
  exact mem_of_lookup hrow'

/-- Saving a query whose id is new, or whose callback is the stored one, stays
within the frame of its id. -/
theorem frame_saveQuery {db : Database} {query : QueryEntity}
    (h : ∀ row, db.queries.lookup query.id = some row → row.callbackUrl = query.callbackUrl) :
    Frame [query.id] db (db.saveQuery query) where
  other _ _ := rfl
  keeps _ row hrow := ⟨row, hrow, rfl, rfl⟩
  newRow _ row hrow := .inl ⟨row, hrow, rfl⟩
  query id row hrow := by
    by_cases hid : id = query.id
    · subst hid
      exact ⟨_, lookup_saveQuery db query, (h row hrow).symm⟩
    · exact ⟨row, by rw [lookup_saveQuery_ne db hid, hrow], rfl⟩
  newQuery id hid := by
    rcases (AList.mem_insert _).mp hid with rfl | hid
    · exact .inr List.mem_cons_self
    · exact .inl hid
  childless id hid _ := lookup_saveQuery_ne db (by simpa using hid)

/-- Saving a query that has a row, with its stored callback, touches no other
id. -/
theorem frame_saveQuery_of_row {db : Database} {query : QueryEntity} {row : QueryRow}
    (hrow : db.queries.lookup query.id = some row) (hcb : row.callbackUrl = query.callbackUrl)
    {id : Uuid} {sub : SubqueryRow} (hsub : db.subqueries.lookup id = some sub)
    (hq : sub.queryId = query.id) : Frame [] db (db.saveQuery query) := by
  have hframe : Frame [query.id] db (db.saveQuery query) := frame_saveQuery fun row' hrow' => by
    rw [hrow] at hrow'
    obtain rfl := Option.some.inj hrow'
    exact hcb
  refine ⟨fun _ _ => rfl, hframe.keeps, fun _ r hr => .inl ⟨r, hr, rfl⟩, hframe.query,
    fun id' hid => .inl ?_, fun id' _ hno => lookup_saveQuery_ne db ?_⟩
  · rcases hframe.newQuery id' hid with hid | hid
    · exact hid
    · obtain rfl : id' = query.id := by simpa using hid
      exact mem_of_lookup hrow
  · rintro rfl
    exact hno id sub hsub hq

/-- Saving an entity onto its own row, with the stored path, stays within the
frame of its id. -/
theorem frame_saveSubquery {db db' : Database} {e : SubqueryEntity} {row : SubqueryRow}
    (hq : e.query = none) (hrow : db.subqueries.lookup e.id = some row) (hpath : row.path = e.path)
    (h : db.saveSubquery e = some db') : Frame [e.id] db db' := by
  rw [saveSubquery_of_row hq hrow] at h
  obtain rfl := Option.some.inj h
  refine ⟨fun id hid => ?_, fun id row' hrow' => ?_, fun id row' hrow' => .inl ?_,
    fun _ row' hrow' => ⟨row', hrow', rfl⟩, fun _ hid => .inl hid, fun _ _ _ => rfl⟩
  · exact AList.lookup_insert_ne fun hid' => hid (by rw [hid']; exact List.mem_cons_self)
  · by_cases hid : id = e.id
    · subst hid
      rw [hrow] at hrow'
      obtain rfl := Option.some.inj hrow'
      exact ⟨_, AList.lookup_insert _, hpath.symm, rfl⟩
    · exact ⟨row', by rw [← hrow']; exact AList.lookup_insert_ne hid, rfl, rfl⟩
  · by_cases hid : id = e.id
    · subst hid
      rw [AList.lookup_insert] at hrow'
      obtain rfl := Option.some.inj hrow'
      exact ⟨row, hrow, rfl⟩
    · rw [AList.lookup_insert_ne hid] at hrow'
      exact ⟨row', hrow', rfl⟩

/-- A save of new rows is refused if one of their paths cannot be stored. -/
theorem storable_of_saveSubqueries {db db' : Database} {es : List SubqueryEntity} {queryId : Uuid}
    (hq : ∀ e ∈ es, e.query = some queryId) (h : db.saveSubqueries es = some db') :
    ∀ e ∈ es, storable e.path = true := by
  induction es generalizing db with
  | nil => simp
  | cons e es ih =>
    rw [saveSubqueries, List.foldlM_cons] at h
    obtain ⟨db₁, hfirst, hrest⟩ := Option.bind_eq_some_iff.mp h
    have htail := ih (fun e' he' => hq e' (List.mem_cons_of_mem _ he')) hrest
    exact List.forall_mem_cons.mpr
      ⟨storable_of_saveSubquery (hq e List.mem_cons_self) hfirst, htail⟩

/-- **Saving the rows of a new query.**  When the query is stored and the rows are new,
with paths that can be stored, the save succeeds, stores exactly those rows and leaves
the rest alone. -/
theorem saveSubqueries_of_fresh {db : Database} {es : List SubqueryEntity} {queryId : Uuid}
    (hmem : queryId ∈ db.queries) (hq : ∀ e ∈ es, e.query = some queryId)
    (hnd : (es.map SubqueryEntity.id).Nodup) (hpaths : ∀ e ∈ es, storable e.path = true) :
    ∃ db', db.saveSubqueries es = some db' ∧ db'.queries = db.queries ∧
      (∀ id ∉ es.map SubqueryEntity.id, db'.subqueries.lookup id = db.subqueries.lookup id) ∧
      ∀ e ∈ es, db'.subqueries.lookup e.id = some ⟨e.path, queryId, e.result⟩ := by
  -- The query stays stored while the rows go in one by one.
  induction es generalizing db with
  | nil => exact ⟨db, rfl, rfl, fun _ _ => rfl, by simp⟩
  | cons e es ih =>
    rw [List.map_cons, List.nodup_cons] at hnd
    obtain ⟨hne, hnd⟩ := hnd
    obtain ⟨hpath, hpaths⟩ := List.forall_mem_cons.mp hpaths
    have hsave := saveSubquery_of_query (hq e List.mem_cons_self) hmem hpath
    let db₁ : Database :=
      { db with subqueries := db.subqueries.insert e.id ⟨e.path, queryId, e.result⟩ }
    have hmem₁ : queryId ∈ db₁.queries := hmem
    have hq₁ : ∀ e' ∈ es, e'.query = some queryId := fun e' he' =>
      hq e' (List.mem_cons_of_mem _ he')
    obtain ⟨db', hdb', hqueries, hother, hrows⟩ := ih hmem₁ hq₁ hnd hpaths
    refine ⟨db', ?_, hqueries, fun id hid => ?_, fun e' he' => ?_⟩
    · rw [saveSubqueries, List.foldlM_cons, hsave]
      exact hdb'
    · rw [List.map_cons, List.mem_cons, not_or] at hid
      rw [hother id hid.2]
      exact AList.lookup_insert_ne hid.1
    · -- The first row is not written again by the later ones.
      rcases List.mem_cons.mp he' with rfl | he'
      · rw [hother _ hne]
        exact AList.lookup_insert _
      · exact hrows e' he'

/-- Saving the rows of a new query stays within the frame of its id and theirs. -/
theorem frame_saveSubqueries {db db' : Database} {es : List SubqueryEntity} {queryId : Uuid}
    (hmem : queryId ∈ db.queries) (hqueries : db'.queries = db.queries)
    (hother : ∀ id ∉ es.map SubqueryEntity.id, db'.subqueries.lookup id = db.subqueries.lookup id)
    (hrows : ∀ e ∈ es, db'.subqueries.lookup e.id = some ⟨e.path, queryId, e.result⟩)
    (hfresh : ∀ e ∈ es, e.id ∉ db.subqueries) :
    Frame (queryId :: es.map SubqueryEntity.id) db db' where
  other id hid := hother id fun hmem => hid (List.mem_cons_of_mem _ hmem)
  keeps id row hrow := by
    refine ⟨row, ?_, rfl, rfl⟩
    rw [hother id fun hid => ?_, hrow]
    obtain ⟨e, he, rfl⟩ := List.mem_map.mp hid
    exact hfresh e he (mem_of_lookup hrow)
  newRow id row' hrow' := by
    by_cases hid : id ∈ es.map SubqueryEntity.id
    · obtain ⟨e, he, rfl⟩ := List.mem_map.mp hid
      rw [hrows e he] at hrow'
      obtain rfl := Option.some.inj hrow'
      exact .inr ⟨List.mem_cons_self, hmem⟩
    · rw [hother id hid] at hrow'
      exact .inl ⟨row', hrow', rfl⟩
  query id row hrow := ⟨row, by rw [hqueries, hrow], rfl⟩
  newQuery id hid := .inl (hqueries ▸ hid)
  childless id _ _ := by rw [hqueries]

end Database

end SwapiService
