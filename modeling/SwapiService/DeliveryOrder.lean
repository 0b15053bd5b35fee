import Mathlib.Data.List.Induction
import SwapiService.Sequential

/-!
# The order of deliveries

A batch of `RECEIVE` events of one query, each delivered once to the query manager and
once to the cache manager, every handler running to completion at once.

In the end every event's result is stored in its row and in the cache, whatever the
order.  The status is decided anew by each handler, from what is cached at that time
and its own event; so the last handler decides, and what it finds depends on which
events the cache manager has got by then.

## Main definitions

* `Batch`, `CompleteSchedule`, `runSchedule` — events, schedules and what they do.
* `NeverCompletes`, `AlwaysCompletes` — the batches for which no handler, or every
  handler, finds all results, in whatever order.

## Main results

* `delivered_runSchedule` — the rows and the cache after any part of a schedule.
* `reachable_runSchedule` — schedules are runs of the handlers.
* `completed_runSchedule_iff` — the last handler decides.
* `order_irrelevant_iff` — the exact condition.
* `order_matters` — two events, and two orders.
-/

namespace SwapiService

open TaskPool Transition

/-! ### Schedules -/

/-- A batch of events with results for the query: each names a subquery of the query,
and no two the same path.  In particular one event for each path among the subqueries
without a result. -/
structure Batch (db : Database) (queryId : Uuid) (events : List SubqueryDto) : Prop where
  persisted : queryId ∈ db.queries
  refers : ∀ e ∈ events, e.queryId = queryId ∧
    ∃ result, db.subqueries.lookup e.id = some ⟨e.path, queryId, result⟩
  truthy : ∀ e ∈ events, e.result.truthy = true
  distinct : (events.map SubqueryDto.path).Nodup

/-- The events delivered to the query manager. -/
def toQueryManager (ds : List Delivery) : List SubqueryDto :=
  ds.filterMap fun
    | .toQueryManager dto => some dto
    | .toCacheManager _ => none

/-- The events delivered to the cache manager. -/
def toCacheManager (ds : List Delivery) : List SubqueryDto :=
  ds.filterMap fun
    | .toQueryManager _ => none
    | .toCacheManager dto => some dto

/-- Each event is delivered once to either service. -/
structure CompleteSchedule (events : List SubqueryDto) (ds : List Delivery) : Prop where
  queryManager : (toQueryManager ds).Perm events
  cacheManager : (toCacheManager ds).Perm events

/-- The deliveries one after the other, every handler running to completion. -/
def runSchedule (s : ResultStore) (ds : List Delivery) : ResultStore :=
  ds.foldl deliverAtomically s

/-- The two stores agree on the query, on all subqueries and on all that is cached. -/
structure SameOutcome (queryId : Uuid) (s s' : ResultStore) : Prop where
  query : s.db.queries.lookup queryId = s'.db.queries.lookup queryId
  rows : ∀ id, s.db.subqueries.lookup id = s'.db.subqueries.lookup id
  contents : ∀ path, s.cache.contents path = s'.cache.contents path

@[simp] theorem toQueryManager_append (ds ds' : List Delivery) :
    toQueryManager (ds ++ ds') = toQueryManager ds ++ toQueryManager ds' := List.filterMap_append

@[simp] theorem toCacheManager_append (ds ds' : List Delivery) :
    toCacheManager (ds ++ ds') = toCacheManager ds ++ toCacheManager ds' := List.filterMap_append

@[simp] theorem runSchedule_append (s : ResultStore) (ds ds' : List Delivery) :
    runSchedule s (ds ++ ds') = runSchedule (runSchedule s ds) ds' := List.foldl_append

@[simp] theorem toQueryManager_map (es : List SubqueryDto) :
    toQueryManager (es.map .toQueryManager) = es ∧
      toCacheManager (es.map .toQueryManager) = [] := by
  constructor
  · rw [toQueryManager, List.filterMap_map]
    exact List.filterMap_some
  · rw [toCacheManager, List.filterMap_map]
    exact List.filterMap_eq_nil_iff.mpr fun _ _ => rfl

@[simp] theorem toCacheManager_map (es : List SubqueryDto) :
    toQueryManager (es.map .toCacheManager) = [] ∧
      toCacheManager (es.map .toCacheManager) = es := by
  constructor
  · rw [toQueryManager, List.filterMap_map]
    exact List.filterMap_eq_nil_iff.mpr fun _ _ => rfl
  · rw [toCacheManager, List.filterMap_map]
    exact List.filterMap_some

section Batch

variable {s₀ s : ResultStore} {queryId : Uuid} {events : List SubqueryDto}

/-- An event is determined by its path. -/
theorem Batch.eq_of_path {db : Database} (hb : Batch db queryId events) {e e' : SubqueryDto}
    (he : e ∈ events) (he' : e' ∈ events) (hpath : e.path = e'.path) : e = e' :=
  List.inj_on_of_nodup_map hb.distinct he he' hpath

/-- An event is determined by its subquery. -/
theorem Batch.eq_of_id {db : Database} (hb : Batch db queryId events) {e e' : SubqueryDto}
    (he : e ∈ events) (he' : e' ∈ events) (hid : e.id = e'.id) : e = e' := by
  obtain ⟨-, r, hrow⟩ := hb.refers e he
  obtain ⟨-, r', hrow'⟩ := hb.refers e' he'
  rw [hid, hrow'] at hrow
  have hsame := Option.some.inj hrow
  exact hb.eq_of_path he he' (congrArg SubqueryRow.path hsame).symm

/-! ### After a part of a schedule -/

/-- What the stores are once the events `qs` have been delivered to the query manager,
and the events `cs` to the cache manager. -/
structure Delivered (s₀ : ResultStore) (queryId : Uuid) (qs cs : List SubqueryDto)
    (s : ResultStore) : Prop where
  query : ∀ qrow, s₀.db.queries.lookup queryId = some qrow →
    ∃ status, s.db.queries.lookup queryId = some ⟨qrow.callbackUrl, status⟩ ∧
      (qs = [] → status = qrow.status)
  rows : ∀ e ∈ qs, s.db.subqueries.lookup e.id = some ⟨e.path, queryId, e.result⟩
  otherRows : ∀ id ∉ qs.map SubqueryDto.id,
    s.db.subqueries.lookup id = s₀.db.subqueries.lookup id
  contents : ∀ e ∈ cs, s.cache.contents e.path = some e.result
  otherContents : ∀ path ∉ cs.map SubqueryDto.path,
    s.cache.contents path = s₀.cache.contents path

/-- The rows of the query keep their paths. -/
theorem Delivered.row_iff {qs cs : List SubqueryDto} (h : Delivered s₀ queryId qs cs s)
    (hb : Batch s₀.db queryId events) (hqs : qs ⊆ events) {id : Uuid} {path : String} :
    (∃ result, s.db.subqueries.lookup id = some ⟨path, queryId, result⟩) ↔
      ∃ result, s₀.db.subqueries.lookup id = some ⟨path, queryId, result⟩ := by
  by_cases hid : id ∈ qs.map SubqueryDto.id
  · obtain ⟨e, he, rfl⟩ := List.mem_map.mp hid
    obtain ⟨-, r, hrow⟩ := hb.refers e (hqs he)
    rw [h.rows e he, hrow]
    simp
  · rw [h.otherRows id hid]

theorem Delivered.refl (s₀ : ResultStore) (queryId : Uuid) : Delivered s₀ queryId [] [] s₀ where
  query qrow hqrow := ⟨qrow.status, hqrow, fun _ => rfl⟩
  rows _ he := nomatch he
  otherRows _ _ := rfl
  contents _ he := nomatch he
  otherContents _ _ := rfl

/-- So the subqueries other than that of an event are those of the start. -/
theorem Delivered.othersCached_iff {qs cs : List SubqueryDto} (h : Delivered s₀ queryId qs cs s)
    (hb : Batch s₀.db queryId events) (hqs : qs ⊆ events) {e : SubqueryDto} (he : e ∈ events)
    (cache : ResourceCollection) : OthersCached s.db cache e ↔ OthersCached s₀.db cache e := by
  obtain ⟨rfl, -⟩ := hb.refers e he
  constructor
  · rintro hall id ⟨path, _, result⟩ hrow rfl hne
    obtain ⟨result', hrow'⟩ := (h.row_iff hb hqs).mpr ⟨result, hrow⟩
    exact hall id ⟨path, e.queryId, result'⟩ hrow' rfl hne
  · rintro hall id ⟨path, _, result⟩ hrow rfl hne
    obtain ⟨result', hrow'⟩ := (h.row_iff hb hqs).mp ⟨result, hrow⟩
    exact hall id ⟨path, e.queryId, result'⟩ hrow' rfl hne

/-- **One more event is delivered to the query manager.** -/
theorem Delivered.handle {qs cs : List SubqueryDto} (h : Delivered s₀ queryId qs cs s)
    (hb : Batch s₀.db queryId events) (hqs : qs ⊆ events) {e : SubqueryDto} (he : e ∈ events) :
    Delivered s₀ queryId (qs ++ [e]) cs (deliverAtomically s (.toQueryManager e)) ∧
      ((deliverAtomically s (.toQueryManager e)).db.Completed queryId ↔
        OthersCached s₀.db s.cache e) := by
  obtain ⟨rfl, r, hrow₀⟩ := hb.refers e he
  obtain ⟨r', hrow⟩ := (h.row_iff hb hqs).mpr ⟨r, hrow₀⟩
  obtain ⟨qrow, hqrow₀⟩ := Database.exists_lookup hb.persisted
  obtain ⟨status, hqrow, -⟩ := h.query qrow hqrow₀
  have hdb : (deliverAtomically s (.toQueryManager e)).db = _ := handleSubqueryResult_eq hrow hqrow
  have hstatus : (decidedQuery s.db s.cache e ⟨qrow.callbackUrl, status⟩).status = .COMPLETED ↔
      OthersCached s.db s.cache e := status_decidedQuery_iff hrow rfl (hb.truthy e he)
  have hquery : (deliverAtomically s (.toQueryManager e)).db.queries.lookup e.queryId
      = some ⟨qrow.callbackUrl,
          (decidedQuery s.db s.cache e ⟨qrow.callbackUrl, status⟩).status⟩ := by
    rw [hdb]
    exact Database.lookup_saveQuery _ _
  have hother : ∀ id ≠ e.id, (deliverAtomically s (.toQueryManager e)).db.subqueries.lookup id
      = s.db.subqueries.lookup id := by
    intro id hid
    rw [hdb]
    exact AList.lookup_insert_ne hid
  -- The row of the event and the status of the query change, and nothing else.
  refine ⟨⟨?_, ?_, ?_, h.contents, h.otherContents⟩, ?_⟩
  · intro qrow' hqrow'
    rw [hqrow₀] at hqrow'
    obtain rfl := Option.some.inj hqrow'
    exact ⟨_, hquery, fun hnil => absurd hnil (List.append_ne_nil_of_right_ne_nil _ (by simp))⟩
  · intro e' he'
    by_cases hid : e'.id = e.id
    · -- The event itself, or the same event delivered before.
      have heq : e' = e := by
        rcases List.mem_append.mp he' with he' | he'
        · exact hb.eq_of_id (hqs he') he hid
        · exact List.mem_singleton.mp he'
      subst heq
      rw [hdb]
      exact AList.lookup_insert _
    · rw [hother _ hid]
      refine h.rows e' ((List.mem_append.mp he').resolve_right fun hmem => hid ?_)
      rw [List.mem_singleton.mp hmem]
  · intro id hid
    rw [List.map_append, List.mem_append, not_or, List.map_singleton, List.mem_singleton] at hid
    rw [hother id hid.2]
    exact h.otherRows id hid.1
  · rw [← h.othersCached_iff hb hqs he, ← hstatus]
    constructor
    · rintro ⟨row, hrow, hcompleted⟩
      rw [hquery] at hrow
      obtain rfl := Option.some.inj hrow
      exact hcompleted
    · exact fun hcompleted => ⟨_, hquery, hcompleted⟩

/-- **One more event is delivered to the cache manager.** -/
theorem Delivered.cache {qs cs : List SubqueryDto} (h : Delivered s₀ queryId qs cs s)
    (hb : Batch s₀.db queryId events) (hcs : cs ⊆ events) {e : SubqueryDto} (he : e ∈ events) :
    Delivered s₀ queryId qs (cs ++ [e]) (deliverAtomically s (.toCacheManager e)) := by
  have hcontents := contents_updateCacheAtomically (hb.truthy e he) s.cache
  refine ⟨h.query, h.rows, h.otherRows, ?_, ?_⟩
  · intro e' he'
    show (updateCacheAtomically s.cache e).contents e'.path = _
    rw [hcontents]
    split_ifs with hpath
    · -- No two events of the batch have the same path.
      have heq : e' = e := by
        rcases List.mem_append.mp he' with he' | he'
        · exact hb.eq_of_path (hcs he') he hpath
        · exact List.mem_singleton.mp he'
      rw [heq]
    · refine h.contents e' ((List.mem_append.mp he').resolve_right fun hmem => hpath ?_)
      rw [List.mem_singleton.mp hmem]
  · intro path hpath
    rw [List.map_append, List.mem_append, not_or, List.map_singleton, List.mem_singleton] at hpath
    show (updateCacheAtomically s.cache e).contents path = _
    rw [hcontents, if_neg hpath.2]
    exact h.otherContents path hpath.1

/-- **The rows and the cache after any part of a schedule.** -/
theorem delivered_runSchedule (hb : Batch s₀.db queryId events) {ds : List Delivery}
    (hqs : toQueryManager ds ⊆ events) (hcs : toCacheManager ds ⊆ events) :
    Delivered s₀ queryId (toQueryManager ds) (toCacheManager ds) (runSchedule s₀ ds) := by
  induction ds using List.reverseRecOn with
  | nil => exact .refl s₀ queryId
  | append_singleton ds d ih =>
    rw [toQueryManager_append, List.append_subset] at hqs
    rw [toCacheManager_append, List.append_subset] at hcs
    rw [toQueryManager_append, toCacheManager_append, runSchedule_append]
    have hds := ih hqs.1 hcs.1
    cases d with
    | toQueryManager e =>
      have he : e ∈ events := hqs.2 (by simp [toQueryManager])
      show Delivered s₀ queryId _ (toCacheManager ds ++ []) _
      rw [List.append_nil]
      exact (hds.handle hb hqs.1 he).1
    | toCacheManager e =>
      have he : e ∈ events := hcs.2 (by simp [toCacheManager])
      show Delivered s₀ queryId (toQueryManager ds ++ []) _ _
      rw [List.append_nil]
      exact hds.cache hb hcs.1 he

/-- The events of a batch name a subquery of the query, at any time. -/
theorem Delivered.refers {qs cs : List SubqueryDto} (h : Delivered s₀ queryId qs cs s)
    (hb : Batch s₀.db queryId events) (hqs : qs ⊆ events) {e : SubqueryDto} (he : e ∈ events) :
    Refers s.db e := by
  obtain ⟨rfl, r, hrow₀⟩ := hb.refers e he
  obtain ⟨r', hrow⟩ := (h.row_iff hb hqs).mpr ⟨r, hrow₀⟩
  obtain ⟨qrow, hqrow₀⟩ := Database.exists_lookup hb.persisted
  obtain ⟨status, hqrow, -⟩ := h.query qrow hqrow₀
  exact ⟨_, hrow, rfl, rfl, Database.mem_of_lookup hqrow⟩

/-- Such schedules are runs of the machine of the handlers. -/
theorem reachable_runSchedule (hb : Batch s₀.db queryId events) {ds : List Delivery}
    (hqs : toQueryManager ds ⊆ events) (hcs : toCacheManager ds ⊆ events) :
    Reachable resultHandling.step ⟨s₀, []⟩ ⟨runSchedule s₀ ds, []⟩ := by
  induction ds using List.reverseRecOn with
  | nil => exact Reachable.refl _
  | append_singleton ds d ih =>
    rw [toQueryManager_append, List.append_subset] at hqs
    rw [toCacheManager_append, List.append_subset] at hcs
    rw [runSchedule_append]
    refine (ih hqs.1 hcs.1).trans ?_
    cases d with
    | toQueryManager e =>
      have he : e ∈ events := hqs.2 (by simp [toQueryManager])
      have hrefers := (delivered_runSchedule hb hqs.1 hcs.1).refers hb hqs.1 he
      have hdeliver : deliver (runSchedule s₀ ds) (.toQueryManager e) = some _ := if_pos hrefers
      exact reachable_deliverAtomically hdeliver
    | toCacheManager e =>
      have hdeliver : deliver (runSchedule s₀ ds) (.toCacheManager e) = some _ := rfl
      exact reachable_deliverAtomically hdeliver

/-- What is cached for a path by then: it was before, or its event has been delivered. -/
theorem Delivered.cached_iff {qs cs : List SubqueryDto} (h : Delivered s₀ queryId qs cs s)
    (hb : Batch s₀.db queryId events) (hcs : cs ⊆ events) (path : String) :
    (s.cache.cached path).truthy = true ↔
      path ∈ cs.map SubqueryDto.path ∨ (s₀.cache.cached path).truthy = true := by
  rw [ResourceCollection.cached_eq_contents, ResourceCollection.cached_eq_contents]
  by_cases hpath : path ∈ cs.map SubqueryDto.path
  · obtain ⟨e, he, rfl⟩ := List.mem_map.mp hpath
    have htruthy := hb.truthy e (hcs he)
    rw [h.contents e he]
    refine iff_of_true ?_ (.inl hpath)
    show e.result.orNull.truthy = true
    rw [Json.truthy_orNull]
    exact htruthy
  · rw [h.otherContents path hpath, or_iff_right hpath]

/-- The rows and what is cached do not depend on the schedule. -/
theorem rows_and_contents_agree (hb : Batch s₀.db queryId events) {ds ds' : List Delivery}
    (hds : CompleteSchedule events ds) (hds' : CompleteSchedule events ds') :
    (∀ id, (runSchedule s₀ ds).db.subqueries.lookup id
      = (runSchedule s₀ ds').db.subqueries.lookup id) ∧
      ∀ path, (runSchedule s₀ ds).cache.contents path
        = (runSchedule s₀ ds').cache.contents path := by
  have h := delivered_runSchedule hb hds.queryManager.subset hds.cacheManager.subset
  have h' := delivered_runSchedule hb hds'.queryManager.subset hds'.cacheManager.subset
  have hqs := hds.queryManager.trans hds'.queryManager.symm
  have hcs := hds.cacheManager.trans hds'.cacheManager.symm
  constructor
  -- Either schedule has delivered the same events to the same services.
  · intro id
    by_cases hid : id ∈ (toQueryManager ds).map SubqueryDto.id
    · obtain ⟨e, he, rfl⟩ := List.mem_map.mp hid
      rw [h.rows e he, h'.rows e (hqs.subset he)]
    · rw [h.otherRows id hid, h'.otherRows id fun hmem => hid ((hqs.map _).mem_iff.mpr hmem)]
  · intro path
    by_cases hpath : path ∈ (toCacheManager ds).map SubqueryDto.path
    · obtain ⟨e, he, rfl⟩ := List.mem_map.mp hpath
      rw [h.contents e he, h'.contents e (hcs.subset he)]
    · rw [h.otherContents path hpath,
        h'.otherContents path fun hmem => hpath ((hcs.map _).mem_iff.mpr hmem)]

/-! ### The last handler decides -/

/-- Deliveries to the cache manager leave the database alone. -/
theorem db_runSchedule {ds : List Delivery} (h : toQueryManager ds = []) (s : ResultStore) :
    (runSchedule s ds).db = s.db := by
  induction ds generalizing s with
  | nil => rfl
  | cons d ds ih =>
    cases d with
    | toQueryManager e => cases h
    | toCacheManager e => exact ih h (deliverAtomically s (.toCacheManager e))

/-- The last delivery to the query manager. -/
theorem exists_last {ds : List Delivery} (h : toQueryManager ds ≠ []) :
    ∃ ds₁ e ds₂, ds = ds₁ ++ .toQueryManager e :: ds₂ ∧ toQueryManager ds₂ = [] := by
  induction ds using List.reverseRecOn with
  | nil => exact absurd rfl h
  | append_singleton ds d ih =>
    cases d with
    | toQueryManager e => exact ⟨ds, e, [], rfl, rfl⟩
    | toCacheManager e =>
      rw [toQueryManager_append] at h
      obtain ⟨ds₁, e', ds₂, rfl, hds₂⟩ := ih fun hnil => h (by rw [hnil]; rfl)
      refine ⟨ds₁, e', ds₂ ++ [.toCacheManager e], by simp, ?_⟩
      rw [toQueryManager_append, hds₂]
      rfl

/-- **The last handler decides**: the query ends up completed just in case all its other
subqueries were cached before, or their events delivered to the cache manager by then. -/
theorem completed_runSchedule_iff (hb : Batch s₀.db queryId events) {ds₁ ds₂ : List Delivery}
    {e : SubqueryDto} (hqs : toQueryManager (ds₁ ++ .toQueryManager e :: ds₂) ⊆ events)
    (hcs : toCacheManager ds₁ ⊆ events) (hds₂ : toQueryManager ds₂ = []) :
    (runSchedule s₀ (ds₁ ++ .toQueryManager e :: ds₂)).db.Completed queryId ↔
      ∀ id row, s₀.db.subqueries.lookup id = some row → row.queryId = queryId → id ≠ e.id →
        row.path ∈ (toCacheManager ds₁).map SubqueryDto.path ∨
          (s₀.cache.cached row.path).truthy = true := by
  rw [toQueryManager_append, List.append_subset] at hqs
  obtain ⟨hqs, hlast⟩ := hqs
  have he : e ∈ events := hlast (by simp [toQueryManager])
  have hdelivered := delivered_runSchedule hb hqs hcs
  have hdb : (runSchedule s₀ (ds₁ ++ .toQueryManager e :: ds₂)).db
      = (deliverAtomically (runSchedule s₀ ds₁) (.toQueryManager e)).db := by
    rw [runSchedule_append]
    exact db_runSchedule hds₂ (deliverAtomically (runSchedule s₀ ds₁) (.toQueryManager e))
  rw [hdb, (hdelivered.handle hb hqs he).2]
  unfold OthersCached
  rw [(hb.refers e he).1]
  simp only [hdelivered.cached_iff hb hcs]

/-! ### The exact condition -/

/-- Some subquery is neither cached nor among those of the events. -/
def NeverCompletes (s₀ : ResultStore) (queryId : Uuid) (events : List SubqueryDto) : Prop :=
  ∃ id row, s₀.db.subqueries.lookup id = some row ∧ row.queryId = queryId ∧
    row.path ∉ events.map SubqueryDto.path ∧ ¬ (s₀.cache.cached row.path).truthy = true

/-- For every event, all other subqueries of the query are cached already. -/
def AlwaysCompletes (s₀ : ResultStore) (queryId : Uuid) (events : List SubqueryDto) : Prop :=
  ∀ e ∈ events, ∀ id row, s₀.db.subqueries.lookup id = some row → row.queryId = queryId →
    id ≠ e.id → (s₀.cache.cached row.path).truthy = true

/-- A subquery whose path no event has is not that of an event. -/
theorem Batch.ne_of_path {db : Database} (hb : Batch db queryId events) {id : Uuid}
    {row : SubqueryRow} (hrow : db.subqueries.lookup id = some row)
    (hpath : row.path ∉ events.map SubqueryDto.path) {e : SubqueryDto} (he : e ∈ events) :
    id ≠ e.id := by
  rintro rfl
  obtain ⟨-, r, hrow'⟩ := hb.refers e he
  rw [hrow] at hrow'
  obtain rfl := Option.some.inj hrow'
  exact hpath (List.mem_map_of_mem he)

/-- In either case all complete schedules agree on whether the query is completed. -/
theorem completed_of_complete (hb : Batch s₀.db queryId events) (hne : events ≠ [])
    {ds : List Delivery} (hds : CompleteSchedule events ds) :
    (NeverCompletes s₀ queryId events → ¬ (runSchedule s₀ ds).db.Completed queryId) ∧
      (AlwaysCompletes s₀ queryId events → (runSchedule s₀ ds).db.Completed queryId) := by
  obtain ⟨ds₁, e, ds₂, rfl, hds₂⟩ : ∃ ds₁ e ds₂, ds = ds₁ ++ .toQueryManager e :: ds₂ ∧
      toQueryManager ds₂ = [] := by
    refine exists_last fun hnil => hne ?_
    have hperm := hds.queryManager
    rw [hnil] at hperm
    exact hperm.nil_eq.symm
  have hqs := hds.queryManager.subset
  have hcs := hds.cacheManager.subset
  rw [toCacheManager_append, List.append_subset] at hcs
  have he : e ∈ events := hqs (by simp [toQueryManager])
  rw [completed_runSchedule_iff hb hqs hcs.1 hds₂]
  constructor
  · -- No event can fill the gap, whichever is handled last.
    rintro ⟨id, row, hrow, hq, hpath, hcached⟩ hall
    rcases hall id row hrow hq (hb.ne_of_path hrow hpath he) with hmem | htruthy
    · exact hpath (List.map_subset _ hcs.1 hmem)
    · exact hcached htruthy
  · intro halways id row hrow hq hid
    exact .inr (halways e he id row hrow hq hid)

/-- Schedules that agree on whether the query is completed agree on everything. -/
theorem sameOutcome_of_completed (hb : Batch s₀.db queryId events) {ds ds' : List Delivery}
    (hds : CompleteSchedule events ds) (hds' : CompleteSchedule events ds')
    (h : (runSchedule s₀ ds).db.Completed queryId ↔ (runSchedule s₀ ds').db.Completed queryId) :
    SameOutcome queryId (runSchedule s₀ ds) (runSchedule s₀ ds') := by
  obtain ⟨hrows, hcontents⟩ := rows_and_contents_agree hb hds hds'
  refine ⟨?_, hrows, hcontents⟩
  obtain ⟨qrow, hqrow⟩ := Database.exists_lookup hb.persisted
  obtain ⟨status, hstatus, -⟩ := (delivered_runSchedule hb hds.queryManager.subset
    hds.cacheManager.subset).query qrow hqrow
  obtain ⟨status', hstatus', -⟩ := (delivered_runSchedule hb hds'.queryManager.subset
    hds'.cacheManager.subset).query qrow hqrow
  -- There are but two statuses, so agreeing on one of them is enough.
  have hcompleted : ∀ {db : Database} {st : Status},
      db.queries.lookup queryId = some ⟨qrow.callbackUrl, st⟩ →
        (db.Completed queryId ↔ st = .COMPLETED) := by
    intro db st hlookup
    simp [Database.Completed, hlookup]
  rw [hcompleted hstatus, hcompleted hstatus'] at h
  rw [hstatus, hstatus']
  cases status <;> cases status' <;> simp_all

/-- The query manager first, the given event last. -/
def queryManagerFirst (events : List SubqueryDto) (e : SubqueryDto) : List Delivery :=
  (events.erase e).map .toQueryManager ++ .toQueryManager e :: events.map .toCacheManager

/-- The cache manager first, the given event last. -/
def cacheManagerFirst (events : List SubqueryDto) (e : SubqueryDto) : List Delivery :=
  (events.map .toCacheManager ++ (events.erase e).map .toQueryManager) ++ [.toQueryManager e]

/-- Every event but one, and then that one. -/
theorem erase_append_perm {e : SubqueryDto} (he : e ∈ events) :
    (events.erase e ++ [e]).Perm events :=
  List.perm_append_comm.trans (List.perm_cons_erase he).symm

theorem complete_queryManagerFirst {e : SubqueryDto} (he : e ∈ events) :
    CompleteSchedule events (queryManagerFirst events e) := by
  have hsplit : queryManagerFirst events e
      = (events.erase e ++ [e]).map .toQueryManager ++ events.map .toCacheManager := by
    simp [queryManagerFirst]
  rw [hsplit]
  refine ⟨?_, ?_⟩
  · rw [toQueryManager_append, (toQueryManager_map _).1, (toCacheManager_map _).1, List.append_nil]
    exact erase_append_perm he
  · rw [toCacheManager_append, (toQueryManager_map _).2, (toCacheManager_map _).2, List.nil_append]

theorem complete_cacheManagerFirst {e : SubqueryDto} (he : e ∈ events) :
    CompleteSchedule events (cacheManagerFirst events e) := by
  have hsplit : cacheManagerFirst events e
      = events.map .toCacheManager ++ (events.erase e ++ [e]).map .toQueryManager := by
    simp [cacheManagerFirst]
  rw [hsplit]
  refine ⟨?_, ?_⟩
  · rw [toQueryManager_append, (toQueryManager_map _).1, (toCacheManager_map _).1, List.nil_append]
    exact erase_append_perm he
  · rw [toCacheManager_append, (toQueryManager_map _).2, (toCacheManager_map _).2, List.append_nil]

/-- **When the order of deliveries does not matter.**  All complete schedules of a batch
have the same outcome just in case there is no event, or some subquery is neither cached
nor among those of the events, or for every event all other subqueries are cached
already. -/
theorem order_irrelevant_iff (hb : Batch s₀.db queryId events) :
    (∀ ds ds', CompleteSchedule events ds → CompleteSchedule events ds' →
      SameOutcome queryId (runSchedule s₀ ds) (runSchedule s₀ ds')) ↔
        events = [] ∨ NeverCompletes s₀ queryId events ∨ AlwaysCompletes s₀ queryId events := by
  constructor
  · intro hagree
    by_cases halways : AlwaysCompletes s₀ queryId events
    · exact .inr (.inr halways)
    · -- Some event is decided too early if the query manager gets it before the cache
      -- manager has got any; so it must be too early after the cache manager has got all.
      unfold AlwaysCompletes at halways
      simp only [not_forall] at halways
      obtain ⟨e, he, id, row, hrow, hq, hid, hcached⟩ := halways
      have hcomplete := complete_queryManagerFirst he
      have hcomplete' := complete_cacheManagerFirst he
      have hearly : ¬ (runSchedule s₀ (queryManagerFirst events e)).db.Completed queryId := by
        unfold queryManagerFirst at hcomplete ⊢
        rw [completed_runSchedule_iff hb hcomplete.queryManager.subset
          (by rw [(toQueryManager_map _).2]; exact List.nil_subset _) (toCacheManager_map _).1]
        intro hall
        rw [(toQueryManager_map _).2] at hall
        rcases hall id row hrow hq hid with hmem | htruthy
        · cases hmem
        · exact hcached htruthy
      have hlate : ¬ (runSchedule s₀ (cacheManagerFirst events e)).db.Completed queryId := by
        rintro ⟨qrow, hqrow, hcompleted⟩
        have hquery := (hagree _ _ hcomplete hcomplete').query
        exact hearly ⟨qrow, hquery.trans hqrow, hcompleted⟩
      have hcs : toCacheManager (events.map .toCacheManager ++ (events.erase e).map .toQueryManager)
          = events := by
        rw [toCacheManager_append, (toCacheManager_map _).2, (toQueryManager_map _).2,
          List.append_nil]
      unfold cacheManagerFirst at hcomplete' hlate
      rw [completed_runSchedule_iff hb hcomplete'.queryManager.subset
        (by rw [hcs]; exact List.Subset.refl _) rfl, hcs] at hlate
      simp only [not_forall, not_or] at hlate
      obtain ⟨id, row, hrow, hq, -, hpath, hcached⟩ := hlate
      exact .inr (.inl ⟨id, row, hrow, hq, hpath, hcached⟩)
  · intro hcond ds ds' hds hds'
    refine sameOutcome_of_completed hb hds hds' ?_
    by_cases hne : events = []
    · -- No handler runs.
      subst hne
      rw [db_runSchedule hds.queryManager.eq_nil, db_runSchedule hds'.queryManager.eq_nil]
    · obtain ⟨hnever, halways⟩ := completed_of_complete hb hne hds
      obtain ⟨hnever', halways'⟩ := completed_of_complete hb hne hds'
      rcases hcond with hnil | hcond | hcond
      · exact absurd hnil hne
      · exact iff_of_false (hnever hcond) (hnever' hcond)
      · exact iff_of_true (halways hcond) (halways' hcond)

end Batch

/-- The results of the two subqueries of `twoSubqueries`. -/
def twoResults : List SubqueryDto :=
  [⟨⟨0⟩, "people/1", ⟨2⟩, .structured "\x7b\x7d"⟩, ⟨⟨1⟩, "planets/1", ⟨2⟩, .structured "\x7b\x7d"⟩]

theorem batch_twoResults : Batch twoSubqueries ⟨2⟩ twoResults := by
  refine ⟨by decide, ?_, by decide, by decide⟩
  simp only [twoResults, List.forall_mem_cons, List.not_mem_nil, false_implies, implies_true,
    and_true]
  exact ⟨⟨trivial, .null, rfl⟩, trivial, .null, rfl⟩

/-- **The order matters**: with the cache manager first the query is completed, with the
query manager first it stays pending for ever. -/
theorem order_matters :
    Batch twoSubqueries ⟨2⟩ twoResults ∧ ∃ ds ds',
      CompleteSchedule twoResults ds ∧ CompleteSchedule twoResults ds' ∧
      (runSchedule ⟨twoSubqueries, .empty⟩ ds).db.queries.lookup ⟨2⟩ = some ⟨none, .COMPLETED⟩ ∧
      (runSchedule ⟨twoSubqueries, .empty⟩ ds').db.queries.lookup ⟨2⟩ = some ⟨none, .PENDING⟩ := by
  have he : (⟨⟨1⟩, "planets/1", ⟨2⟩, .structured "\x7b\x7d"⟩ : SubqueryDto) ∈ twoResults := by
    decide
  exact ⟨batch_twoResults, _, _, complete_cacheManagerFirst he, complete_queryManagerFirst he,
    by decide +kernel, by decide +kernel⟩

theorem order_irrelevant_iff_twoResults :
    (∀ ds ds', CompleteSchedule twoResults ds → CompleteSchedule twoResults ds' →
      SameOutcome ⟨2⟩ (runSchedule ⟨twoSubqueries, .empty⟩ ds)
        (runSchedule ⟨twoSubqueries, .empty⟩ ds')) ↔
      twoResults = [] ∨ NeverCompletes ⟨twoSubqueries, .empty⟩ ⟨2⟩ twoResults ∨
        AlwaysCompletes ⟨twoSubqueries, .empty⟩ ⟨2⟩ twoResults :=
  order_irrelevant_iff batch_twoResults

end SwapiService
