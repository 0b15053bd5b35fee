import SwapiService.Ownership

/-!
# Scheduling the missing paths

A creation that is recorded publishes a `SCHEDULE_FETCH` event for every path it has
no result for, and it should publish one for each.  The subqueries are deduplicated
by folding them into an object literal, so the names `Object.prototype` already has
go wrong: such a path is answered by the prototype, and its event carries neither an
id nor a path, or is not published at all.

## Main definitions

* `Database.Misses` — a query has a stored subquery for a path, without a result.
* `SchedulesMissing` — the events are those of the missing paths, one for each.

## Main results

* `events_eq` — the events when no missing path is such a name.
* `schedules_missing_iff` — the exact condition under which each missing path is
  scheduled once.
* `unscheduled_path` — a creation that schedules nothing deliverable.
-/

namespace SwapiService

open TaskPool Transition PlainObject

/-- The query has a stored subquery for the path, without a result. -/
def Database.Misses (db : Database) (queryId : Uuid) (path : String) : Prop :=
  ∃ id row, db.subqueries.lookup id = some row ∧ row.queryId = queryId ∧ row.path = path ∧
    ¬ row.result.truthy = true

/-- The events are those of the missing paths: each path once, with the id of a stored
subquery that has the path and no result. -/
structure SchedulesMissing (db : Database) (queryId : Uuid) (events : List SubqueryPayload) :
    Prop where
  once : (events.map SubqueryPayload.path).Nodup
  paths : ∀ path, path ∈ events.map SubqueryPayload.path ↔
    ∃ p, path = some p ∧ db.Misses queryId p
  carries : ∀ event ∈ events, event.queryId = queryId ∧ ∃ id row, event.id = some id ∧
    db.subqueries.lookup id = some row ∧ row.queryId = queryId ∧ event.path = some row.path ∧
    ¬ row.result.truthy = true

/-- The paths of a query's subqueries that have no result. -/
def missingPaths (query : QueryEntity) : List String :=
  (missingSubqueries query).map SubqueryEntity.path

theorem mem_missingPaths {query : QueryEntity} {path : String} :
    path ∈ missingPaths query ↔
      ∃ q ∈ query.subqueries, q.path = path ∧ ¬ q.result.truthy = true := by
  rw [missingPaths, List.mem_map]
  constructor
  · rintro ⟨q, hq, hpath⟩
    obtain ⟨hmem, hfalsy⟩ := mem_missingSubqueries.mp hq
    exact ⟨q, hmem, hpath, hfalsy⟩
  · rintro ⟨q, hmem, hpath, hfalsy⟩
    exact ⟨q, mem_missingSubqueries.mpr ⟨hmem, hfalsy⟩, hpath⟩

/-- **The events**, when no missing path is a name `Object.prototype` has: those of the
subqueries scheduled. -/
theorem events_eq {query : QueryEntity}
    (h : ∀ path ∈ missingPaths query, path ∉ objectPrototypeKeys) :
    (targetSubqueries query).map (schedulePayload query.id)
      = (scheduled query).map fun q => ⟨some q.id, some q.path, query.id⟩ := by
  have hkeys : ∀ q ∈ missingSubqueries query, q.path ∉ objectPrototypeKeys := by
    intro q hq
    exact h q.path (List.mem_map_of_mem hq)
  rw [targetSubqueries, values_collect hkeys, List.map_map]
  rfl

/-- What is stored of a query without a result is what its last save found missing. -/
theorem misses_iff {db : Database} {query : QueryEntity}
    (hrows : ∀ q ∈ query.subqueries,
      db.subqueries.lookup q.id = some ⟨q.path, query.id, q.result⟩)
    (hown : ∀ id row, db.subqueries.lookup id = some row → row.queryId = query.id →
      id ∈ query.subqueries.map SubqueryEntity.id) {path : String} :
    db.Misses query.id path ↔ path ∈ missingPaths query := by
  rw [mem_missingPaths]
  constructor
  · rintro ⟨id, row, hrow, hq, hpath, hfalsy⟩
    obtain ⟨q, hmem, rfl⟩ := List.mem_map.mp (hown id row hrow hq)
    rw [hrows q hmem] at hrow
    obtain rfl := Option.some.inj hrow
    exact ⟨q, hmem, hpath, hfalsy⟩
  · rintro ⟨q, hmem, hpath, hfalsy⟩
    exact ⟨q.id, _, hrows q hmem, rfl, hpath, hfalsy⟩

section Events

variable {db : Database} {query : QueryEntity}

/-- A missing path that has its event is no name of the prototype: the event comes from
a value of the fold, not from a builtin. -/
theorem SchedulesMissing.not_prototype
    (hmisses : ∀ path, db.Misses query.id path ↔ path ∈ missingPaths query)
    (h : SchedulesMissing db query.id ((targetSubqueries query).map (schedulePayload query.id)))
    {path : String} (hpath : path ∈ missingPaths query) : path ∉ objectPrototypeKeys := by
  have hevent := (h.paths (some path)).mpr ⟨path, rfl, (hmisses path).mpr hpath⟩
  obtain ⟨p, hp, hpp⟩ := List.mem_map.mp hevent
  obtain ⟨v, hv, rfl⟩ := List.mem_map.mp hp
  cases v with
  | builtin name => cases hpp
  | value q =>
    obtain rfl := Option.some.inj hpp
    have hq : q ∈ scheduled query := List.mem_filterMap.mpr ⟨_, hv, rfl⟩
    exact (mem_collect_own (mem_collected.mp hq)).2.2

/-- The paths scheduled are the missing ones. -/
theorem mem_map_path_scheduled (h : ∀ path ∈ missingPaths query, path ∉ objectPrototypeKeys)
    {path : String} :
    path ∈ (scheduled query).map SubqueryEntity.path ↔ path ∈ missingPaths query := by
  constructor
  · intro hpath
    obtain ⟨q, hq, rfl⟩ := List.mem_map.mp hpath
    exact List.mem_map_of_mem (collected_subset _ _ hq)
  · intro hpath
    obtain ⟨q, hq, rfl⟩ := List.mem_map.mp hpath
    obtain ⟨q', hq'⟩ := exists_mem_collect_own hq (h _ hpath)
    obtain ⟨-, hsame, -⟩ := mem_collect_own hq'
    rw [hsame] at hq' ⊢
    exact List.mem_map_of_mem (mem_collected.mpr hq')

/-- Without such names every missing path is scheduled once. -/
theorem schedulesMissing_of_not_prototype
    (hrows : ∀ q ∈ query.subqueries,
      db.subqueries.lookup q.id = some ⟨q.path, query.id, q.result⟩)
    (hmisses : ∀ path, db.Misses query.id path ↔ path ∈ missingPaths query)
    (h : ∀ path ∈ missingPaths query, path ∉ objectPrototypeKeys) :
    SchedulesMissing db query.id ((targetSubqueries query).map (schedulePayload query.id)) := by
  rw [events_eq h]
  have hpaths : ((scheduled query).map fun q =>
        (⟨some q.id, some q.path, query.id⟩ : SubqueryPayload)).map SubqueryPayload.path
      = ((scheduled query).map SubqueryEntity.path).map some := by
    rw [List.map_map, List.map_map]
    rfl
  refine ⟨?_, fun path => ?_, fun p hp => ?_⟩
  · rw [hpaths]
    exact (nodup_map_collected _ _).map (Option.some_injective _)
  · rw [hpaths, List.mem_map]
    constructor
    · rintro ⟨p, hp, rfl⟩
      exact ⟨p, rfl, (hmisses p).mpr ((mem_map_path_scheduled h).mp hp)⟩
    · rintro ⟨p, rfl, hp⟩
      exact ⟨p, (mem_map_path_scheduled h).mpr ((hmisses p).mp hp), rfl⟩
  · obtain ⟨q, hq, rfl⟩ := List.mem_map.mp hp
    obtain ⟨hmem, hfalsy⟩ := mem_of_mem_scheduled hq
    exact ⟨rfl, q.id, _, rfl, hrows q hmem, rfl, rfl, hfalsy⟩

/-- A creation whose rows are refused has nothing to schedule, and schedules nothing. -/
theorem schedulesMissing_of_childless (hnone : ∀ id row, db.subqueries.lookup id = some row →
    row.queryId ≠ query.id) : SchedulesMissing db query.id [] := by
  refine ⟨List.nodup_nil, fun path => ?_, by simp⟩
  refine iff_of_false (by simp) ?_
  rintro ⟨p, -, id, row, hrow, hq, -⟩
  exact hnone id row hrow hq

end Events

/-- **When each missing path is scheduled once.**  Let a creation be about to save its
subqueries, in a state reachable from any cache.  Its events are those of the missing
paths just in case its rows cannot be stored, or none of these paths is the name of a
property of `Object.prototype`. -/
theorem schedules_missing_iff (cfg : Settings) (cache : ResourceCollection) {s : Sys}
    (h : Reachable (system cfg).step (startingWith cache) s) {query : QueryEntity}
    (ht : Task.creation ⟨query, .saveSubqueries⟩ ∈ s.pool) {e : Effect Creation}
    (he : (⟨query, .saveSubqueries⟩ : Creation).step s.store.db s.store.cache .proceed = some e) :
    SchedulesMissing e.db query.id e.emitted ↔
      (query.Storable → ∀ path ∈ missingPaths query, path ∉ objectPrototypeKeys) := by
  have hI : (discipline cfg).Inv s :=
    h.invariant (inv_startingWith cfg cache) fun hI hs => Discipline.inv_step hI hs
  have hok : (⟨query, .saveSubqueries⟩ : Creation).Ok s.store.db := (hI.ok _ ht).2
  have hnd : (⟨query, .saveSubqueries⟩ : Creation).owned.Nodup := hI.nodup_owned ht
  cases Creation.fires_of_step he with
  | unsaved hnone =>
    refine iff_of_true (schedulesMissing_of_childless hok.childless) fun hstorable => ?_
    obtain ⟨db', hsave, -⟩ := hok.saves hnd hstorable
    rw [hsave] at hnone
    cases hnone
  | savedSubqueries db' hsave =>
    have hstorable : query.Storable := Database.storable_of_saveSubqueries hok.query hsave
    rw [forall_prop_of_true hstorable]
    obtain ⟨-, hother, hrows⟩ := hok.saved hnd hsave
    have hown : ∀ id row, db'.subqueries.lookup id = some row → row.queryId = query.id →
        id ∈ query.subqueries.map SubqueryEntity.id := by
      intro id row hrow hq
      by_contra hno
      rw [hother id hno] at hrow
      exact hok.childless id row hrow hq
    have hmisses : ∀ path, db'.Misses query.id path ↔ path ∈ missingPaths query :=
      fun path => misses_iff hrows hown
    constructor
    · intro hall path hpath
      exact hall.not_prototype hmisses hpath
    · intro hkeys
      exact schedulesMissing_of_not_prototype hrows hmisses hkeys

/-- A query for one path, from its creation up to the last save. -/
def upToLastSave (path : String) : List (Act Choice EnvAct) :=
  [.env (.create ⟨[path], none⟩ [⟨0⟩] ⟨1⟩), .run 0 (.read 0), .run 0 .proceed, .run 0 .proceed]

/-- The query it has then. -/
def queryForOnePath (path : String) : QueryEntity :=
  ⟨⟨1⟩, [⟨⟨0⟩, path, some ⟨1⟩, .null⟩], none, .PENDING⟩

/-- **A path nothing is scheduled for**: its event has neither an id nor a path. -/
theorem unscheduled_path :
    ∃ s e, Reachable (system ⟨1, "http://swapi", some⟩).step (startingWith .empty) s ∧
      Task.creation ⟨queryForOnePath "constructor", .saveSubqueries⟩ ∈ s.pool ∧
      (⟨queryForOnePath "constructor", .saveSubqueries⟩ : Creation).step s.store.db s.store.cache
        .proceed = some e ∧ e.emitted = [⟨none, none, ⟨1⟩⟩] ∧
      ¬ SchedulesMissing e.db ⟨1⟩ e.emitted := by
  have hexec : (exec (system ⟨1, "http://swapi", some⟩).step (startingWith .empty)
      (upToLastSave "constructor")).any (fun s =>
        Task.creation ⟨queryForOnePath "constructor", .saveSubqueries⟩ ∈ s.pool ∧
          ((⟨queryForOnePath "constructor", .saveSubqueries⟩ : Creation).step s.store.db
            s.store.cache .proceed).any fun e => e.emitted = [⟨none, none, ⟨1⟩⟩]) = true := by
    decide +kernel
  obtain ⟨s, hreach, hp⟩ := exists_reachable_of_exec _ hexec
  obtain ⟨ht, hstep⟩ := of_decide_eq_true hp
  obtain ⟨e, he, hemitted⟩ := (Option.any_eq_true _ _).mp hstep
  refine ⟨s, e, hreach, ht, he, of_decide_eq_true hemitted, fun hall => ?_⟩
  rw [of_decide_eq_true hemitted] at hall
  obtain ⟨-, id, row, hid, -⟩ := hall.carries _ List.mem_cons_self
  cases hid

/-- One planet is cached. -/
def planetCached : ResourceCollection where
  docs := AList.insert "planets/1" ⟨0, .structured "\x7b\x7d"⟩ ∅
  nextObjectId := 1

/-- A query that names a path three times, another that is cached, and a third, from its
creation up to the last save. -/
def upToLastSaveOfPeople : List (Act Choice EnvAct) :=
  [.env (.create ⟨["people/1", "planets/1", "people/1", "films/1", "people/1"], none⟩
      [⟨0⟩, ⟨1⟩, ⟨2⟩, ⟨3⟩, ⟨4⟩] ⟨5⟩), .run 0 (.read 0), .run 0 (.read 1), .run 0 (.read 2),
    .run 0 (.read 3), .run 0 (.read 4), .run 0 .proceed, .run 0 .proceed]

/-- The query it has then. -/
def queryForPeople : QueryEntity :=
  ⟨⟨5⟩, [⟨⟨0⟩, "people/1", some ⟨5⟩, .null⟩,
    ⟨⟨1⟩, "planets/1", some ⟨5⟩, .structured "\x7b\x7d"⟩, ⟨⟨2⟩, "people/1", some ⟨5⟩, .null⟩,
    ⟨⟨3⟩, "films/1", some ⟨5⟩, .null⟩, ⟨⟨4⟩, "people/1", some ⟨5⟩, .null⟩], none, .PENDING⟩

theorem schedules_missing_iff_people :
    ∃ s e, Reachable (system ⟨1, "http://swapi", some⟩).step (startingWith planetCached) s ∧
      (⟨queryForPeople, .saveSubqueries⟩ : Creation).step s.store.db s.store.cache
        .proceed = some e ∧
      e.emitted = [⟨some ⟨0⟩, some "people/1", ⟨5⟩⟩, ⟨some ⟨3⟩, some "films/1", ⟨5⟩⟩] ∧
      SchedulesMissing e.db ⟨5⟩ e.emitted := by
  have hexec : (exec (system ⟨1, "http://swapi", some⟩).step (startingWith planetCached)
      upToLastSaveOfPeople).any (fun s =>
        Task.creation ⟨queryForPeople, .saveSubqueries⟩ ∈ s.pool ∧
          ((⟨queryForPeople, .saveSubqueries⟩ : Creation).step s.store.db s.store.cache
            .proceed).any fun e => e.emitted
              = [⟨some ⟨0⟩, some "people/1", ⟨5⟩⟩, ⟨some ⟨3⟩, some "films/1", ⟨5⟩⟩]) = true := by
    decide +kernel
  obtain ⟨s, hreach, hp⟩ := exists_reachable_of_exec _ hexec
  obtain ⟨ht, hstep⟩ := of_decide_eq_true hp
  obtain ⟨e, he, hemitted⟩ := (Option.any_eq_true _ _).mp hstep
  exact ⟨s, e, hreach, he, of_decide_eq_true hemitted,
    (schedules_missing_iff _ _ hreach ht he).mpr fun _ => by decide⟩

end SwapiService
