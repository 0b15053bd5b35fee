import SwapiService.Recall
import SwapiService.Webhook

/-!
# What the callback receives

The body of a callback is put together before the status of the query is decided and
its row saved: its status is the one the query was loaded with, and its results are
the replies of the cache.  So it always has one entry for each subquery of the query,
but it shows a completed query, the one a poll would show, only if the query was
completed before and nothing has changed since it was read.

## Main definitions

* `PostsCompletedQuery` — a callback shows the completed query.
* `ReadSettled` — what the handler has read is what is stored.

## Main results

* `CoversRows.perm_fetch_iff` — when entries for all rows are what a poll shows.
* `callback_body_iff` — the exact condition.
* `pending_callback` — a callback with a pending query in its body.
-/

namespace SwapiService

open TaskPool Transition

/-! ### The body -/

/-- Two views of a query that differ in the order of the subqueries only. -/
def QueryDto.SameUpToOrder (a b : QueryDto) : Prop :=
  a.id = b.id ∧ a.callbackUrl = b.callbackUrl ∧ a.status = b.status ∧
    a.subqueries.Perm b.subqueries

/-- The callback shows the completed query: its id and callback, `COMPLETED`, one entry
with a result for each of its rows, and all this as a poll would show it. -/
structure PostsCompletedQuery (db : Database) (queryId : Uuid) (p : Notification) : Prop where
  id : p.body.id = .uuid queryId
  callbackUrl : ∃ row, db.queries.lookup queryId = some row ∧
    p.body.callbackUrl = row.callbackUrl ∧ row.callbackUrl = some p.url
  status : p.body.status = .COMPLETED
  rows : CoversRows db queryId p.body.subqueries
  results : ∀ d ∈ p.body.subqueries, d.result.truthy = true
  polled : (fetchQueryResultsAsync db queryId).SameUpToOrder p.body

/-- What the handler of an event has read is what is stored when it saves its row: the
query was completed when it was loaded and still is, and the replies of the cache for
the other subqueries are their stored results. -/
structure ReadSettled (h : List (Reaction Store Task Choice)) (db : Database) (dto : SubqueryDto) :
    Prop where
  loaded : ∀ status ∈ loadedStatuses h dto.id, status = .COMPLETED
  stored : db.Completed dto.queryId
  replies : ∀ d ∈ cacheReplies h dto.id, d.id ≠ dto.id →
    ∀ row, db.subqueries.lookup d.id = some row → row.result = d.result

section Body

variable {db db' : Database} {dto : SubqueryDto} {query : QueryEntity} {cached : List SubqueryDto}

/-- The entries of the body: the event, and the replies for the other subqueries. -/
theorem mem_latestResponse {d : SubqueryDto} :
    d ∈ (latestResponse dto query cached).subqueries ↔
      d = dto ∧ dto.id ∈ cached.map SubqueryDto.id ∨ d ∈ cached ∧ d.id ≠ dto.id := by
  simp only [latestResponse, List.mem_map]
  constructor
  · rintro ⟨q, hq, rfl⟩
    split_ifs with hid
    · exact .inl ⟨rfl, q, hq, hid⟩
    · exact .inr ⟨hq, hid⟩
  · rintro (⟨rfl, q, hq, hid⟩ | ⟨hd, hid⟩)
    · exact ⟨q, hq, if_pos hid⟩
    · exact ⟨d, hd, if_neg hid⟩

/-- The body has one entry for each row of the query. -/
theorem CoversRows.latestResponse (href : Refers db dto) (h : CoversRows db dto.queryId cached) :
    CoversRows db dto.queryId (latestResponse dto query cached).subqueries := by
  apply h.congr
  · show (cached.map fun q => if q.id = dto.id then dto else q).map SubqueryDto.id = _
    rw [List.map_map]
    apply List.map_congr_left
    intro q hq
    show (if q.id = dto.id then dto else q).id = q.id
    split_ifs with hid
    · exact hid.symm
    · rfl
  · intro d hd
    rcases mem_latestResponse.mp hd with ⟨rfl, hown⟩ | ⟨hd, -⟩
    · -- The event and the reply it replaces refer to the same row.
      obtain ⟨q, hq, hid⟩ := List.mem_map.mp hown
      obtain ⟨⟨row, hrow, hpath, hrq, -⟩, hqq⟩ := h.refers q hq
      obtain ⟨row', hrow', hpath', -⟩ := href
      rw [hid, hrow'] at hrow
      obtain rfl := Option.some.inj hrow
      exact ⟨q, hq, hid.symm, hpath'.symm.trans hpath, hqq.symm⟩
    · exact ⟨d, hd, rfl, rfl, rfl⟩

/-- **The body and a poll**, when one has an entry for each row: they have the same
subqueries just in case the entries are what is stored. -/
theorem CoversRows.perm_fetch_iff {queryId : Uuid} {ds : List SubqueryDto}
    (hmem : queryId ∈ db.queries) (h : CoversRows db queryId ds) :
    (fetchQueryResultsAsync db queryId).subqueries.Perm ds ↔
      ∀ d ∈ ds, ∀ row, db.subqueries.lookup d.id = some row → row.result = d.result := by
  obtain ⟨qrow, hqrow⟩ := Database.exists_lookup hmem
  obtain ⟨-, -, -, hnd⟩ := fetchQueryResultsAsync_of_row hqrow
  have hfetch : ∀ {d}, d ∈ (fetchQueryResultsAsync db queryId).subqueries ↔
      d.queryId = queryId ∧ db.subqueries.lookup d.id = some ⟨d.path, queryId, d.result⟩ := by
    intro d
    rw [mem_fetchQueryResultsAsync, and_iff_right hmem]
  constructor
  · intro hperm d hd row hrow
    obtain ⟨-, hstored⟩ := hfetch.mp (hperm.mem_iff.mpr hd)
    rw [hrow] at hstored
    obtain rfl := Option.some.inj hstored
    rfl
  · intro hall
    have hsub : ∀ d ∈ ds, d ∈ (fetchQueryResultsAsync db queryId).subqueries := by
      intro d hd
      obtain ⟨⟨row, hrow, hpath, hrq, -⟩, hq⟩ := h.refers d hd
      refine hfetch.mpr ⟨hq, ?_⟩
      rw [hrow, ← hall d hd row hrow, ← hpath, ← hq, ← hrq]
    rw [List.perm_ext_iff_of_nodup (List.Nodup.of_map _ hnd) (List.Nodup.of_map _ h.nodup)]
    intro d
    refine ⟨fun hd => ?_, hsub d⟩
    obtain ⟨hq, hstored⟩ := hfetch.mp hd
    obtain ⟨d', hd', hid⟩ := List.mem_map.mp (h.covers d.id _ hstored rfl)
    -- Of the DTOs of a poll only one has that id.
    obtain rfl : d' = d := List.inj_on_of_nodup_map hnd (hsub d' hd') hd hid
    exact hd'

/-- What a callback is sent for. -/
theorem of_mem_notifications {updated : QueryEntity} {latest : CreateQueryResponseDto}
    {p : Notification} (h : p ∈ notifications updated latest) :
    updated.status = .COMPLETED ∧ updated.callbackUrl = some p.url ∧ p.body = latest := by
  refine ⟨?_, ?_, body_of_mem_notifications h⟩
  all_goals
    unfold notifications at h
    split at h
    · next url hstatus hurl =>
      split_ifs at h
      · obtain rfl := List.mem_singleton.mp h
        assumption
      · cases h
    · cases h

section Posting

variable {h : List (Reaction Store Task Choice)} {subquery : SubqueryEntity} {updated : QueryEntity}
  {latest : CreateQueryResponseDto} {p : Notification}

/-- **What every callback shows**: its query's id and callback, and one entry with a
result for each of its rows. -/
theorem Handler.Ok.posts (hok : (⟨dto, .saveSubquery subquery updated latest⟩ : Handler).Ok db)
    (hrecalls : (HandlerPhase.saveSubquery subquery updated latest).Recalls h db dto)
    (hsave : db.saveSubquery subquery = some db') (hp : p ∈ notifications updated latest) :
    p.body.id = .uuid dto.queryId ∧
      (∃ row, db'.queries.lookup dto.queryId = some row ∧ p.body.callbackUrl = row.callbackUrl ∧
        row.callbackUrl = some p.url) ∧
      CoversRows db' dto.queryId p.body.subqueries ∧
      ∀ d ∈ p.body.subqueries, d.result.truthy = true := by
  obtain ⟨hqueries, hother, hown⟩ := hok.saved hsave
  have hframe : Database.Frame [dto.id] db db' := by
    obtain ⟨⟨row, hrow, hpath, -⟩, hsub, -⟩ := hok
    rw [hsub] at hsave
    exact Database.frame_saveSubquery rfl hrow hpath hsave
  obtain ⟨href, -, ⟨hid, row, hrow, hcb⟩, hlatest⟩ := hok
  obtain ⟨query, cached, rfl, rfl, -, -, hcovers⟩ := hrecalls
  obtain ⟨hstatus, hurl, hbody⟩ := of_mem_notifications hp
  rw [hid] at hrow hlatest
  rw [hbody]
  have hentries : CoversRows db dto.queryId (latestResponse dto query cached).subqueries :=
    hcovers.latestResponse href
  refine ⟨hlatest, ⟨row, ?_, hcb.symm, hcb.trans hurl⟩, ⟨hentries.nodup, ?_, ?_⟩, ?_⟩
  · rw [hqueries]
    exact hrow
  · intro d hd
    obtain ⟨hd, hq⟩ := hentries.refers d hd
    exact ⟨hd.frame hframe, hq⟩
  · intro id r hr hrq
    by_cases hself : id = dto.id
    · -- Its own row was one of the query's before.
      obtain ⟨own, hlookup, -, hownq, -⟩ := href
      subst hself
      exact hentries.covers dto.id own hlookup hownq
    · rw [hother id hself] at hr
      exact hentries.covers id r hr hrq
  · -- The query was saved as completed, which it is when all entries have a result.
    obtain ⟨own, hlookup, -, hownq, -⟩ := href
    have hmem := hcovers.covers dto.id own hlookup hownq
    obtain ⟨htruthy, hothers⟩ := (status_updatedQuery_iff hmem).mp hstatus
    intro d hd
    rcases mem_latestResponse.mp hd with ⟨rfl, -⟩ | ⟨hd, hne⟩
    · exact htruthy
    · exact hothers d hd hne

/-- **When a callback shows the completed query**: just in case what its handler has read
is what is stored. -/
theorem Handler.Ok.posts_iff (hok : (⟨dto, .saveSubquery subquery updated latest⟩ : Handler).Ok db)
    (hrecalls : (HandlerPhase.saveSubquery subquery updated latest).Recalls h db dto)
    (hsave : db.saveSubquery subquery = some db') (hp : p ∈ notifications updated latest) :
    PostsCompletedQuery db' dto.queryId p ↔ ReadSettled h db dto := by
  obtain ⟨hbodyid, hcallback, hrows, hresults⟩ := hok.posts hrecalls hsave hp
  obtain ⟨hqueries, hother, hown⟩ := hok.saved hsave
  obtain ⟨row, hrow, hcb, -⟩ := hcallback
  obtain ⟨query, cached, rfl, rfl, hloaded, hperm, hcovers⟩ := hrecalls
  obtain ⟨-, -, hbody⟩ := of_mem_notifications hp
  have hmem : dto.queryId ∈ db'.queries := Database.mem_of_lookup hrow
  obtain ⟨hid, hstatus, hurl, -⟩ := fetchQueryResultsAsync_of_row hrow
  have hposted : p.body.status = query.status := by rw [hbody]; rfl
  rw [hqueries] at hrow
  constructor
  · intro hall
    have hcompleted : query.status = .COMPLETED := hposted.symm.trans hall.status
    obtain ⟨-, -, hpolled, hsame⟩ := hall.polled
    refine ⟨?_, ⟨row, hrow, hstatus.symm.trans (hpolled.trans hall.status)⟩, ?_⟩
    · intro status hmem
      rw [hloaded] at hmem
      exact (List.mem_singleton.mp hmem).trans hcompleted
    · intro d hd hne r hr
      have hentry : d ∈ p.body.subqueries := by
        rw [hbody]
        exact mem_latestResponse.mpr (.inr ⟨hperm.mem_iff.mp hd, hne⟩)
      rw [← hother d.id hne] at hr
      exact (hrows.perm_fetch_iff hmem).mp hsame d hentry r hr
  · intro hsettled
    have hcompleted : query.status = .COMPLETED :=
      hsettled.loaded query.status (by rw [hloaded]; exact List.mem_cons_self)
    obtain ⟨row', hrow', hstored⟩ := hsettled.stored
    rw [hrow] at hrow'
    obtain rfl := Option.some.inj hrow'
    have hcallback := (hok.posts ⟨query, cached, rfl, rfl, hloaded, hperm, hcovers⟩ hsave hp).2.1
    refine ⟨hbodyid, hcallback, hposted.trans hcompleted, hrows, hresults, ?_⟩
    refine ⟨hid.trans hbodyid.symm, hurl.trans hcb.symm, ?_, (hrows.perm_fetch_iff hmem).mpr ?_⟩
    · rw [hstatus, hstored, hposted, hcompleted]
    · intro d hd r hr
      rw [hbody] at hd
      rcases mem_latestResponse.mp hd with ⟨rfl, -⟩ | ⟨hd, hne⟩
      · -- Its own row has just been saved.
        rw [hown] at hr
        obtain rfl := Option.some.inj hr
        rfl
      · rw [hother d.id hne] at hr
        exact hsettled.replies d (hperm.mem_iff.mpr hd) hne r hr

end Posting

/-- A handler posts only with its last save. -/
theorem Handler.saves_of_posts {cache : ResourceCollection} {phase : HandlerPhase} {c : Choice}
    {e : Effect Handler} (h : Fires db cache dto phase c e) {p : Notification} (hp : p ∈ e.posts) :
    ∃ subquery updated latest, phase = .saveSubquery subquery updated latest ∧
      db.saveSubquery subquery = some e.db ∧ p ∈ notifications updated latest := by
  cases h with
  | savedSubquery subquery updated latest db' hsave =>
    exact ⟨subquery, updated, latest, rfl, hsave, hp⟩
  | _ => cases hp

end Body

/-- **When a callback shows the completed query.**  In every run, when a handler of an
event posts to the callback: the body has the id and the callback of the event's query
and one entry with a result for each of its rows; and it shows the completed query, as a
poll would right then, just in case the query was completed already when the handler
loaded it and still is, and the cache replies it got for the other subqueries are what
is stored for them. -/
theorem callback_body_iff (cfg : Settings) {tr : List (Sys × Act Choice EnvAct)} {s s' : Sys}
    (h : Run (system cfg).step initial tr s) {i : ℕ} {c : Choice}
    (hs : (system cfg).step s (.run i c) = some s') {t : Handler}
    (ht : s.pool[i]? = some (.handler t)) {p : Notification}
    (hp : s'.store.posts = s.store.posts ++ [p]) :
    (p.body.id = .uuid t.dto.queryId ∧
        (∃ row, s'.store.db.queries.lookup t.dto.queryId = some row ∧
          p.body.callbackUrl = row.callbackUrl ∧ row.callbackUrl = some p.url) ∧
        CoversRows s'.store.db t.dto.queryId p.body.subqueries ∧
        ∀ d ∈ p.body.subqueries, d.result.truthy = true) ∧
      (PostsCompletedQuery s'.store.db t.dto.queryId p ↔
        ReadSettled (reactions tr) s.store.db t.dto) := by
  have hI := inv_of_reachable ⟨tr, h⟩
  have hmem : Task.handler t ∈ s.pool := List.mem_of_getElem? ht
  have hok := (hI.ok _ hmem).2.2
  have hrecalls := recalls h hmem
  obtain ⟨e, hfires, hdb, hposts⟩ : ∃ e, Handler.Fires s.store.db s.store.cache t.dto t.phase c e ∧
      s'.store.db = e.db ∧ s'.store.posts = s.store.posts ++ e.posts := by
    rcases system_step_cases hs with ⟨i', c', t', rest, ts, ha, hr, hreacts⟩ | ⟨e, ts, ha, -⟩
    · obtain ⟨rfl, rfl⟩ := Act.run.inj ha
      have hsame : some t' = some (Task.handler t) := hr.get.symm.trans ht
      obtain rfl := Option.some.inj hsame
      obtain ⟨e, hfires, hstore, -⟩ := hreacts.of_handler
      exact ⟨e, hfires, by rw [hstore]; rfl, by rw [hstore]; rfl⟩
    · cases ha
  have hpost : p ∈ e.posts := by
    rw [List.append_cancel_left (hposts.symm.trans hp)]
    exact List.mem_cons_self
  obtain ⟨dto, phase⟩ := t
  obtain ⟨subquery, updated, latest, rfl, hsave, hnotified⟩ := Handler.saves_of_posts hfires hpost
  rw [hdb]
  exact ⟨hok.posts hrecalls hsave hnotified, hok.posts_iff hrecalls hsave hnotified⟩

/-- A query for one path with a callback, up to the last segment of its handler. -/
def upToCallback : List (Act Choice EnvAct) :=
  [.env (.create ⟨["people/1"], some "http://localhost:3000"⟩ [⟨0⟩] ⟨1⟩),
    .run 0 (.read 0), .run 0 .proceed, .run 0 .proceed, .run 0 .proceed,
    -- It is admitted, fetched and logged.
    .run 0 .proceed, .run 0 .proceed, .run 0 .proceed, .run 0 .proceed, .run 1 .proceed,
    .run 1 (.body (.structured "\x7b\x7d")), .run 0 .proceed, .run 2 (.draw ⟨2⟩),
    -- Its result is handled.
    .run 0 .proceed, .run 2 .proceed, .run 2 .proceed, .run 2 (.read 0), .run 2 .proceed,
    .run 2 .proceed]

/-- The task is a handler of the query. -/
def Task.handles (queryId : Uuid) : Task → Bool
  | .handler t => t.dto.queryId = queryId
  | _ => false

/-- What the callback is then sent. -/
def pendingBody : CreateQueryResponseDto :=
  { id := .uuid ⟨1⟩
    subqueries := [⟨⟨0⟩, "people/1", ⟨1⟩, .structured "\x7b\x7d"⟩]
    callbackUrl := some "http://localhost:3000"
    status := .PENDING }

/-- **A callback that shows a pending query**, though the query has just been completed. -/
theorem pending_callback :
    ∃ tr s s', Run (system ⟨1, "http://swapi", some⟩).step initial tr s ∧
      (system ⟨1, "http://swapi", some⟩).step s (.run 2 .proceed) = some s' ∧
      (∃ t, s.pool[2]? = some (.handler t) ∧ t.dto.queryId = ⟨1⟩) ∧
      s'.store.posts = s.store.posts ++ [⟨"http://localhost:3000", pendingBody⟩] ∧
      ¬ PostsCompletedQuery s'.store.db ⟨1⟩ ⟨"http://localhost:3000", pendingBody⟩ := by
  have hexec : (exec (system ⟨1, "http://swapi", some⟩).step initial upToCallback).any (fun s =>
      (s.pool[2]?.any (Task.handles ⟨1⟩)) ∧
      ((system ⟨1, "http://swapi", some⟩).step s (.run 2 .proceed)).any fun s' =>
        s'.store.posts = s.store.posts ++ [⟨"http://localhost:3000", pendingBody⟩]) = true := by
    decide +kernel
  obtain ⟨tr, s, hrun, -, hp⟩ := exists_run_of_exec _ hexec
  obtain ⟨hhandler, hstep⟩ := of_decide_eq_true hp
  obtain ⟨s', hs, hposts⟩ := (Option.any_eq_true _ _).mp hstep
  obtain ⟨t, ht, hq⟩ := (Option.any_eq_true _ _).mp hhandler
  refine ⟨tr, s, s', hrun, hs, ?_, of_decide_eq_true hposts, fun hall => ?_⟩
  · cases t with
    | handler t => exact ⟨t, ht, of_decide_eq_true hq⟩
    | _ => cases hq
  · cases hall.status

/-- What is sent by the second of two handlers that both find all results. -/
def completedBody : CreateQueryResponseDto :=
  { id := .uuid ⟨2⟩
    subqueries := [⟨⟨0⟩, "people/1", ⟨2⟩, .structured "\x7b\x7d"⟩,
      ⟨⟨1⟩, "planets/1", ⟨2⟩, .structured "\x7b\x7d"⟩]
    callbackUrl := some "http://localhost:3000"
    status := .COMPLETED }

theorem callback_body_iff_bothCached :
    ∃ tr s s' t, Run (system ⟨2, "http://swapi", some⟩).step initial tr s ∧
      (system ⟨2, "http://swapi", some⟩).step s (.run 0 .proceed) = some s' ∧
      s.pool[0]? = some (.handler t) ∧
      PostsCompletedQuery s'.store.db ⟨2⟩ ⟨"http://localhost:3000", completedBody⟩ ∧
      ReadSettled (reactions tr) s.store.db t.dto := by
  have hexec : (exec (system ⟨2, "http://swapi", some⟩).step initial
      bothCached.dropLast).any (fun s =>
      (s.pool[0]?.any (Task.handles ⟨2⟩)) ∧
      ((system ⟨2, "http://swapi", some⟩).step s (.run 0 .proceed)).any fun s' =>
        s'.store.posts = s.store.posts ++ [⟨"http://localhost:3000", completedBody⟩] ∧
        (fetchQueryResultsAsync s'.store.db ⟨2⟩).id = completedBody.id ∧
        (fetchQueryResultsAsync s'.store.db ⟨2⟩).callbackUrl = completedBody.callbackUrl ∧
        (fetchQueryResultsAsync s'.store.db ⟨2⟩).status = completedBody.status ∧
        (fetchQueryResultsAsync s'.store.db ⟨2⟩).subqueries.Perm
          completedBody.subqueries) = true := by
    decide +kernel
  obtain ⟨tr, s, hrun, -, hp⟩ := exists_run_of_exec _ hexec
  obtain ⟨hhandler, hstep⟩ := of_decide_eq_true hp
  obtain ⟨s', hs, hposts⟩ := (Option.any_eq_true _ _).mp hstep
  obtain ⟨hposts, hpolled⟩ := of_decide_eq_true hposts
  obtain ⟨t, ht, hq⟩ := (Option.any_eq_true _ _).mp hhandler
  cases t with
  | handler t =>
    obtain ⟨⟨hid, hcallback, hrows, hresults⟩, hiff⟩ := callback_body_iff _ hrun hs ht hposts
    have hq : t.dto.queryId = ⟨2⟩ := of_decide_eq_true hq
    rw [hq] at hid hcallback hrows hiff
    have hall : PostsCompletedQuery s'.store.db ⟨2⟩ ⟨"http://localhost:3000", completedBody⟩ :=
      ⟨hid, hcallback, rfl, hrows, hresults, hpolled⟩
    exact ⟨tr, s, s', t, hrun, hs, ht, hall, hiff.mp hall⟩
  | _ => cases hq

end SwapiService
