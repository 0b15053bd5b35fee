import SwapiService.CallbackBody
import SwapiService.RequestAccounting

/-!
# Where queries come from

Every query stems from one request, the one its id was drawn for, and never becomes
anything else: it has the callback of that request, and no rows yet or one row for each
path the request names, repeated paths included.  Whatever a client is shown of a query,
by a poll or by its callback, is therefore an answer to its own request.

## Main definitions

* `entriesFor` — the subqueries of a query, as DTOs.
* `Origin` — the request a query stems from.
* `Originates` — every query stems from a request.
* `ShowsRequests` — what clients have been shown stems from the requests.

## Main results

* `Reacts.childless_cases` — only its creation gives a query rows.
* `originates_of_run` — in every run all queries originate from its requests.
* `showsRequests_of_run` — and so does whatever clients are shown.
* `polls_show_requests`, `posts_show_requests` — polls and callbacks show what was
  requested.
-/

namespace SwapiService

open TaskPool Transition

/-! ### One row for each path -/

/-- The subqueries of a query with the given ids and paths, as DTOs. -/
def entriesFor (queryId : Uuid) (listing : List (Uuid × String)) : List SubqueryDto :=
  listing.map fun p => { id := p.1, path := p.2, queryId }

/-- Lists with one entry for each row of a query name the same paths, each as often. -/
theorem CoversRows.perm_paths {db : Database} {queryId : Uuid} {ds ds' : List SubqueryDto}
    (h : CoversRows db queryId ds) (h' : CoversRows db queryId ds') :
    (ds.map SubqueryDto.path).Perm (ds'.map SubqueryDto.path) := by
  have hids : (ds.map SubqueryDto.id).Perm (ds'.map SubqueryDto.id) := by
    have hsub : ∀ {es es' : List SubqueryDto}, CoversRows db queryId es →
        CoversRows db queryId es' → es.map SubqueryDto.id ⊆ es'.map SubqueryDto.id := by
      intro es es' hes hes' id hid
      obtain ⟨d, hd, rfl⟩ := List.mem_map.mp hid
      obtain ⟨⟨row, hrow, -, hrq, -⟩, hq⟩ := hes.refers d hd
      exact hes'.covers d.id row hrow (hrq.trans hq)
    rw [List.perm_ext_iff_of_nodup h.nodup h'.nodup]
    exact fun id => ⟨fun hid => hsub h h' hid, fun hid => hsub h' h hid⟩
  -- The path of an entry is that of the row its id names.
  have hpath : ∀ {es : List SubqueryDto}, CoversRows db queryId es → es.map SubqueryDto.path
      = (es.map SubqueryDto.id).map fun id =>
        ((db.subqueries.lookup id).map SubqueryRow.path).getD "" := by
    intro es hes
    rw [List.map_map]
    refine List.map_congr_left fun d hd => ?_
    obtain ⟨⟨row, hrow, hp, -⟩, -⟩ := hes.refers d hd
    rw [Function.comp_apply, hrow, Option.map_some, Option.getD_some, hp]
  rw [hpath h, hpath h']
  exact hids.map _

/-- A poll shows one entry for each row. -/
theorem coversRows_fetch {db : Database} {queryId : Uuid} {row : QueryRow}
    (hrow : db.queries.lookup queryId = some row) :
    CoversRows db queryId (fetchQueryResultsAsync db queryId).subqueries := by
  have hmem : queryId ∈ db.queries := Database.mem_of_lookup hrow
  obtain ⟨-, -, -, hnd⟩ := fetchQueryResultsAsync_of_row hrow
  refine ⟨hnd, fun d hd => ?_, fun id sub hsub hq => ?_⟩
  · obtain ⟨-, hq, hstored⟩ := mem_fetchQueryResultsAsync.mp hd
    exact ⟨⟨_, hstored, rfl, hq.symm, hq ▸ hmem⟩, hq⟩
  · obtain ⟨path, q, result⟩ := sub
    obtain rfl : q = queryId := hq
    let d : SubqueryDto := { id, path, queryId := q, result }
    have hd : d ∈ (fetchQueryResultsAsync db q).subqueries :=
      mem_fetchQueryResultsAsync.mpr ⟨hmem, rfl, hsub⟩
    exact List.mem_map.mpr ⟨d, hd, rfl⟩

/-! ### Rows of a query -/

/-- The query has no rows. -/
def Database.Childless (db : Database) (queryId : Uuid) : Prop :=
  ∀ id row, db.subqueries.lookup id = some row → row.queryId ≠ queryId

section Reactions

variable {cfg : Settings} {s s' : Store} {t : Task} {c : Choice} {ts : List Task}

/-- **Only its creation gives a query rows**, one for each of its subqueries. -/
theorem Reacts.childless_cases (hok : t.Asserts s.db) (hnd : t.owned.Nodup)
    (h : Reacts cfg s t c s' ts) {queryId : Uuid} (hnone : s.db.Childless queryId) :
    s'.db.Childless queryId ∨ ∃ u : Creation, t = .creation u ∧ u.query.id = queryId ∧
      CoversRows s'.db queryId (entriesFor queryId u.listing) := by
  by_cases hcreation : ∃ u, t = .creation u
  · obtain ⟨u, rfl⟩ := hcreation
    obtain ⟨e, hfires, rfl, -⟩ := h.of_creation
    obtain ⟨query, phase⟩ := u
    cases hfires with
    | savedSubqueries db' hsave =>
      obtain ⟨hqueries, hother, hrows⟩ := Creation.Ok.saved hok hnd hsave
      have hstored : db'.queries.lookup query.id = some ⟨query.callbackUrl, .PENDING⟩ :=
        (congrArg (AList.lookup query.id) hqueries).trans (hok.stored rfl)
      have hmem : query.id ∈ db'.queries := Database.mem_of_lookup hstored
      by_cases hid : query.id = queryId
      · subst hid
        refine .inr ⟨_, rfl, rfl, ?_, fun d hd => ?_, fun id row hrow hq => ?_⟩
        · simp only [entriesFor, Creation.listing, List.map_map]
          exact (List.nodup_cons.mp hnd).2
        · simp only [entriesFor, Creation.listing, List.map_map] at hd
          obtain ⟨e, he, rfl⟩ := List.mem_map.mp hd
          exact ⟨⟨_, hrows e he, rfl, rfl, hmem⟩, rfl⟩
        · simp only [entriesFor, Creation.listing, List.map_map]
          by_contra hno
          exact hnone id row ((hother id hno).symm.trans hrow) hq
      · left
        intro id row hrow hq
        by_cases hmem' : id ∈ query.subqueries.map SubqueryEntity.id
        · obtain ⟨e, he, rfl⟩ := List.mem_map.mp hmem'
          have hnew : some _ = some row := (hrows e he).symm.trans hrow
          obtain rfl := Option.some.inj hnew
          exact hid hq
        · exact hnone id row ((hother id hmem').symm.trans hrow) hq
    | _ => exact .inl hnone
  · left
    intro id row' hrow' hq
    by_cases hhandler : ∃ u, t = .handler u
    · -- A handler writes to the row of its event, which is there already.
      obtain ⟨u, rfl⟩ := hhandler
      obtain ⟨e, hfires, rfl, -⟩ := h.of_handler
      have hchanges := Handler.changesOnly_of_fires hok.2 hfires
      obtain ⟨⟨row, hrow, -⟩, -⟩ := hok
      by_cases hid : id = u.dto.id
      · subst hid
        obtain ⟨result, hresult⟩ := hchanges.row row hrow
        have hnew : some _ = some row' := hresult.symm.trans hrow'
        obtain rfl := Option.some.inj hnew
        exact hnone u.dto.id row hrow hq
      · exact hnone id row' ((hchanges.otherRows id hid).symm.trans hrow') hq
    · rw [h.db_eq (fun u hu => hcreation ⟨u, hu⟩) fun u hu => hhandler ⟨u, hu⟩] at hrow'
      exact hnone id row' hrow' hq

/-- **Only its creation stores a query**, with the callback it has. -/
theorem Reacts.stored_cases (hok : t.Asserts s.db) (hnd : t.owned.Nodup)
    (h : Reacts cfg s t c s' ts) {queryId : Uuid} (hmem : queryId ∈ s'.db.queries) :
    queryId ∈ s.db.queries ∨
      ∃ u : Creation, t = .creation u ∧ u.query.id = queryId ∧
        ∀ row, s'.db.queries.lookup queryId = some row → row.callbackUrl = u.query.callbackUrl := by
  by_cases hcreation : ∃ u, t = .creation u
  · obtain ⟨u, rfl⟩ := hcreation
    obtain ⟨e, hfires, rfl, -⟩ := h.of_creation
    obtain ⟨query, phase⟩ := u
    cases hfires with
    | savedQuery =>
      rcases (AList.mem_insert _).mp hmem with rfl | hmem
      · refine .inr ⟨_, rfl, rfl, fun row hrow => ?_⟩
        have hnew : some _ = some row := (Database.lookup_saveQuery s.db query).symm.trans hrow
        obtain rfl := Option.some.inj hnew
        rfl
      · exact .inl hmem
    | savedSubqueries db' hsave =>
      obtain ⟨hqueries, -⟩ := Creation.Ok.saved hok hnd hsave
      have hmem' : queryId ∈ db'.queries := hmem
      rw [hqueries] at hmem'
      exact .inl hmem'
    | _ => exact .inl hmem
  · left
    by_cases hhandler : ∃ u, t = .handler u
    · -- A handler writes to the row of the query of its event, which is there already.
      obtain ⟨u, rfl⟩ := hhandler
      obtain ⟨e, hfires, rfl, -⟩ := h.of_handler
      have hchanges := Handler.changesOnly_of_fires hok.2 hfires
      by_cases hid : queryId = u.dto.queryId
      · obtain ⟨-, -, -, -, hstored⟩ := hok.1.refers
        exact hid ▸ hstored
      · have hsame : (e.store s).db.queries.lookup queryId = s.db.queries.lookup queryId :=
          hchanges.otherQueries queryId hid
        rwa [← AList.lookup_isSome, ← hsame, AList.lookup_isSome]
    · rwa [h.db_eq (fun u hu => hcreation ⟨u, hu⟩) fun u hu => hhandler ⟨u, hu⟩] at hmem

/-- **Only a creation goes on as a creation**, of the same subqueries for the same query. -/
theorem Reacts.creation_cases (hok : t.Asserts s.db) (h : Reacts cfg s t c s' ts) {u : Creation}
    (hu : .creation u ∈ ts) : ∃ v : Creation, t = .creation v ∧ u.listing = v.listing ∧
      u.query.id = v.query.id ∧ u.query.callbackUrl = v.query.callbackUrl := by
  by_cases hcreation : ∃ v, t = .creation v
  · obtain ⟨v, rfl⟩ := hcreation
    obtain ⟨e, hfires, -, rfl⟩ := h.of_creation
    rcases List.mem_append.mp hu with hu | hu
    · obtain ⟨p, -, hp⟩ := List.mem_map.mp hu
      cases hp
    · cases hout : e.outcome with
      | suspended v' =>
        rw [hout] at hu
        obtain rfl := Task.creation.inj (List.mem_singleton.mp hu)
        exact ⟨v, rfl, Creation.listing_of_fires hok hfires hout⟩
      | resolved => rw [hout] at hu; cases hu
      | rejected => rw [hout] at hu; cases hu
  · have hnone := h.request_eq_nil fun v hv => hcreation ⟨v, hv⟩
    rw [List.flatMap_eq_nil_iff] at hnone
    exact absurd (hnone _ hu) (List.cons_ne_nil _ _)

end Reactions

/-! ### Requests and their queries -/

/-- The request `r` a query stems from, and the ids drawn for its paths: its creation works
on these, for the callback of the request; once stored, the query has that callback, and
no rows yet or one for each path. -/
structure Origin (s : Sys) (r : CreateQueryRequestDto × Uuid) (listing : List (Uuid × String)) :
    Prop where
  paths : listing.map Prod.snd = r.1.subqueries
  creation : ∀ t : Creation, .creation t ∈ s.pool → t.query.id = r.2 →
    t.listing = listing ∧ t.query.callbackUrl = r.1.callbackUrl
  callbackUrl : ∀ row, s.store.db.queries.lookup r.2 = some row →
    row.callbackUrl = r.1.callbackUrl
  rows : s.store.db.Childless r.2 ∨ CoversRows s.store.db r.2 (entriesFor r.2 listing)

/-- Every query, stored or about to be, stems from one of the requests, and no two of them
have one id. -/
structure Originates (requests : List (CreateQueryRequestDto × Uuid)) (s : Sys) : Prop where
  nodup : (requests.map Prod.snd).Nodup
  drawn : ∀ r ∈ requests, r.2 ∈ s.store.drawn
  creation : ∀ t : Creation, .creation t ∈ s.pool → t.query.id ∈ requests.map Prod.snd
  query : ∀ id ∈ s.store.db.queries, id ∈ requests.map Prod.snd
  origin : ∀ r ∈ requests, ∃ listing, Origin s r listing

section Steps

variable {cfg : Settings} {s s' : Sys} {requests : List (CreateQueryRequestDto × Uuid)}
  {i : ℕ} {c : Choice} {t : Task} {rest ts : List Task}

/-- A creation after a reaction goes on from one that was there before. -/
theorem creation_before (hok : t.Asserts s.store.db) (hr : (system cfg).Runs s i c s' t rest ts)
    {u : Creation} (hu : .creation u ∈ s'.pool) : ∃ v : Creation, .creation v ∈ s.pool ∧
      u.listing = v.listing ∧ u.query.id = v.query.id ∧
      u.query.callbackUrl = v.query.callbackUrl := by
  rcases hr.mem_pool'.mp hu with hu | hu
  · exact ⟨u, hr.mem_of_rest hu, rfl, rfl, rfl⟩
  · obtain ⟨v, rfl, hsame⟩ := (reacts_of_react hr.react).creation_cases hok hu
    exact ⟨v, hr.mem, hsame⟩

/-- **A reaction leaves the origin of a query as it is.** -/
theorem Origin.runs {r : CreateQueryRequestDto × Uuid} {listing : List (Uuid × String)}
    (h : Origin s r listing) (hok : t.Asserts s.store.db) (hnd : t.owned.Nodup)
    (hr : (system cfg).Runs s i c s' t rest ts) : Origin s' r listing := by
  have hreacts := reacts_of_react hr.react
  refine ⟨h.paths, fun u hu hid => ?_, fun row' hrow' => ?_, ?_⟩
  · obtain ⟨v, hv, hlisting, hsame, hcb⟩ := creation_before hok hr hu
    rw [hlisting, hcb]
    exact h.creation v hv (hsame.symm.trans hid)
  · have hstored := Database.mem_of_lookup hrow'
    rcases hreacts.stored_cases hok hnd hstored with hmem | ⟨u, rfl, hid, hcb⟩
    · -- A query that is stored keeps its callback.
      obtain ⟨row, hrow⟩ := Database.exists_lookup hmem
      obtain ⟨row'', hrow'', hsame⟩ := (hreacts.frame hok hnd).query r.2 row hrow
      obtain rfl := Option.some.inj (hrow'.symm.trans hrow'')
      exact hsame.trans (h.callbackUrl row hrow)
    · rw [hcb row' hrow']
      exact (h.creation u hr.mem hid).2
  · have hchildless : s.store.db.Childless r.2 → s'.store.db.Childless r.2 ∨
        CoversRows s'.store.db r.2 (entriesFor r.2 listing) := by
      intro hnone
      rcases hreacts.childless_cases hok hnd hnone with hnone' | ⟨u, rfl, hid, hcovers⟩
      · exact .inl hnone'
      · rw [(h.creation u hr.mem hid).1] at hcovers
        exact .inr hcovers
    rcases h.rows with hnone | hcovers
    · exact hchildless hnone
    · cases hlisting : entriesFor r.2 listing with
      | nil =>
        -- A query without a path has no row.
        rw [hlisting] at hcovers
        rw [← hlisting]
        exact hchildless fun id row hrow hq => nomatch hcovers.covers id row hrow hq
      | cons d ds =>
        rw [hlisting] at hcovers
        obtain ⟨href, hq⟩ := hcovers.refers d List.mem_cons_self
        rw [← hq] at hcovers ⊢
        exact .inr (hcovers.react hok hnd hreacts href)

/-- A reaction keeps all origins. -/
theorem Originates.runs (h : Originates requests s) (hok : t.Asserts s.store.db)
    (hnd : t.owned.Nodup) (hr : (system cfg).Runs s i c s' t rest ts) : Originates requests s' := by
  have hreacts := reacts_of_react hr.react
  refine ⟨h.nodup, fun r hr' => hreacts.drawn (h.drawn r hr'), fun u hu => ?_, fun id hid => ?_,
    fun r hr' => ?_⟩
  · obtain ⟨v, hv, -, hsame, -⟩ := creation_before hok hr hu
    rw [hsame]
    exact h.creation v hv
  · rcases hreacts.stored_cases hok hnd hid with hmem | ⟨u, rfl, rfl, -⟩
    · exact h.query id hmem
    · exact h.creation u hr.mem
  · obtain ⟨listing, horigin⟩ := h.origin r hr'
    exact ⟨listing, horigin.runs hok hnd hr⟩

theorem Origin.congr {r : CreateQueryRequestDto × Uuid} {listing : List (Uuid × String)}
    (h : Origin s r listing) (hdb : s'.store.db = s.store.db)
    (hpool : ∀ u : Creation, .creation u ∈ s'.pool → u.query.id = r.2 → .creation u ∈ s.pool) :
    Origin s' r listing where
  paths := h.paths
  creation u hu hid := h.creation u (hpool u hu hid) hid
  callbackUrl := by
    rw [hdb]
    exact h.callbackUrl
  rows := by
    rw [hdb]
    exact h.rows

theorem Originates.congr (h : Originates requests s) (hdb : s'.store.db = s.store.db)
    (hdrawn : s'.store.drawn = s.store.drawn) (hpool : s'.pool = s.pool) :
    Originates requests s' where
  nodup := h.nodup
  drawn := by
    rw [hdrawn]
    exact h.drawn
  creation := by
    rw [hpool]
    exact h.creation
  query := by
    rw [hdb]
    exact h.query
  origin r hr := by
    obtain ⟨listing, horigin⟩ := h.origin r hr
    exact ⟨listing, horigin.congr hdb fun u hu _ => hpool ▸ hu⟩

/-- **A new request is the origin of its query**, whose id is new. -/
theorem Originates.create (hI : (discipline cfg).Inv s) (h : Originates requests s)
    {dto : CreateQueryRequestDto} {ids : List Uuid} {queryId : Uuid}
    (hlen : ids.length = dto.subqueries.length) (hfresh : queryId ∉ s.store.drawn)
    (hdb : s'.store.db = s.store.db)
    (hdrawn : queryId ∈ s'.store.drawn ∧ s.store.drawn ⊆ s'.store.drawn)
    (hpool : s'.pool = s.pool ++ [.creation (processNewQueryRequestAsync
      (generateQueryEntityFromCreateDtoAsync dto ids queryId))]) :
    Originates (requests ++ [(dto, queryId)]) s' := by
  have hnew : queryId ∉ requests.map Prod.snd := by
    intro hmem
    obtain ⟨r, hr, rfl⟩ := List.mem_map.mp hmem
    exact hfresh (h.drawn r hr)
  have hstored : queryId ∉ s.store.db.queries := fun hmem => hfresh (hI.good.queriesDrawn _ hmem)
  have hcreation : ∀ u : Creation, .creation u ∈ s'.pool → .creation u ∈ s.pool ∨
      u = processNewQueryRequestAsync (generateQueryEntityFromCreateDtoAsync dto ids queryId) := by
    intro u hu
    rw [hpool, List.mem_append, List.mem_singleton] at hu
    exact hu.imp_right Task.creation.inj
  refine ⟨?_, fun r hr => ?_, fun u hu => ?_, fun id hid => ?_, fun r hr => ?_⟩
  · rw [List.map_append, List.map_singleton]
    exact List.nodup_append'.mpr ⟨h.nodup, List.nodup_singleton _, by simpa using hnew⟩
  · rcases List.mem_append.mp hr with hr | hr
    · exact hdrawn.2 (h.drawn r hr)
    · obtain rfl := List.mem_singleton.mp hr
      exact hdrawn.1
  · rw [List.map_append, List.mem_append]
    rcases hcreation u hu with hu | rfl
    · exact .inl (h.creation u hu)
    · exact .inr List.mem_cons_self
  · rw [hdb] at hid
    rw [List.map_append, List.mem_append]
    exact .inl (h.query id hid)
  · rcases List.mem_append.mp hr with hr | hr
    · obtain ⟨listing, horigin⟩ := h.origin r hr
      refine ⟨listing, horigin.congr hdb fun u hu hid => ?_⟩
      rcases hcreation u hu with hu | rfl
      · exact hu
      · have hsame : queryId = r.2 := hid
        exact absurd (hsame ▸ h.drawn r hr) hfresh
    · obtain rfl := List.mem_singleton.mp hr
      refine ⟨ids.zip dto.subqueries, List.map_snd_zip (le_of_eq hlen.symm), fun u hu hid => ?_,
        fun row hrow => ?_, .inl fun id row hrow hq => ?_⟩
      · rcases hcreation u hu with hu | rfl
        · have hsame : u.query.id = queryId := hid
          exact absurd (hsame ▸ h.creation u hu) hnew
        · exact ⟨listing_start, rfl⟩
      · rw [hdb] at hrow
        exact absurd (Database.mem_of_lookup hrow) hstored
      · rw [hdb] at hrow
        have hsame : row.queryId = queryId := hq
        exact hstored (hsame ▸ hI.good.foreignKey id row hrow)

/-- What comes from outside keeps all origins, and adds that of its request. -/
theorem Originates.acts (hI : (discipline cfg).Inv s) (h : Originates requests s) {e : EnvAct}
    (hacts : Acts s.store e s'.store ts) (hpool : s'.pool = s.pool ++ ts) :
    Originates (requests ++ e.request) s' := by
  have hdb := hacts.db
  generalize hstore : s'.store = store at hacts
  cases hacts with
  | create dto ids queryId hlen hnd hfresh =>
    refine h.create hI hlen (hfresh queryId List.mem_cons_self) hdb ⟨?_, fun id hid => ?_⟩ hpool
    · rw [hstore]
      exact List.mem_append_left _ List.mem_cons_self
    · rw [hstore]
      exact List.mem_append_right _ hid
  | _ =>
    rw [List.append_nil] at hpool
    have hsame : Originates requests s' := by
      refine h.congr hdb ?_ hpool
      rw [hstore]
    rw [EnvAct.request, List.append_nil]
    · exact hsame
    · simp

end Steps

/-! ### What clients are shown -/

/-- **One entry for each path of the request**, wherever there is one for each row. -/
theorem Origin.perm_paths {s : Sys} {r : CreateQueryRequestDto × Uuid}
    {listing : List (Uuid × String)} {ds : List SubqueryDto} (h : Origin s r listing)
    (hcovers : CoversRows s.store.db r.2 ds) :
    ds = [] ∨ (ds.map SubqueryDto.path).Perm r.1.subqueries := by
  rcases h.rows with hnone | hrows
  · left
    refine List.eq_nil_iff_forall_not_mem.mpr fun d hd => ?_
    obtain ⟨⟨row, hrow, -, hrq, -⟩, hq⟩ := hcovers.refers d hd
    exact hnone d.id row hrow (hrq.trans hq)
  · right
    have hpaths : (entriesFor r.2 listing).map SubqueryDto.path = r.1.subqueries := by
      rw [← h.paths, entriesFor, List.map_map]
      rfl
    rw [← hpaths]
    exact hcovers.perm_paths hrows

/-- The response shows the query of a request: its callback, and no subqueries yet or one
for each path it names. -/
def ShowsRequest (requests : List (CreateQueryRequestDto × Uuid)) (r : QueryDto) : Prop :=
  ∀ queryId, r.id = .uuid queryId → ∃ dto, (dto, queryId) ∈ requests ∧
    r.callbackUrl = dto.callbackUrl ∧
    (r.subqueries = [] ∨ (r.subqueries.map SubqueryDto.path).Perm dto.subqueries)

/-- The POST answers a request: it goes to its callback, and lists each path it names. -/
def RepliesToRequest (requests : List (CreateQueryRequestDto × Uuid)) (p : Notification) : Prop :=
  ∃ dto queryId, (dto, queryId) ∈ requests ∧ p.body.id = .uuid queryId ∧
    dto.callbackUrl = some p.url ∧ (p.body.subqueries.map SubqueryDto.path).Perm dto.subqueries

section Runs

variable {cfg : Settings} {cache : ResourceCollection} {tr : List (Sys × Act Choice EnvAct)}
  {s s' : Sys}

theorem requestsIn_subset (tr : List (Sys × Act Choice EnvAct)) (p : Sys × Act Choice EnvAct) :
    requestsIn tr ⊆ requestsIn (tr ++ [p]) := by
  rw [requestsIn, requestsIn, issuedIn, issuedIn, List.flatMap_append]
  exact List.subset_append_left _ _

/-- **All queries originate from the requests of the run.** -/
theorem originates_of_run (h : Run (system cfg).step (startingWith cache) tr s) :
    Originates (requestsIn tr) s := by
  induction h with
  | nil =>
    refine ⟨List.nodup_nil, ?_, ?_, ?_, ?_⟩
    · exact fun r hr => nomatch hr
    · exact fun t ht => nomatch ht
    · exact fun id hid => nomatch hid
    · exact fun r hr => nomatch hr
  | @snoc tr s s' a h hs ih =>
    have hI : (discipline cfg).Inv s := Discipline.inv_of_run h (inv_startingWith cfg cache)
    rcases system_step_cases hs with ⟨i, c, t, rest, ts, rfl, hr, -⟩ | ⟨e, ts, rfl, hacts, hpool⟩
    · rw [requestsIn, issuedIn_run]
      exact ih.runs (hI.ok t hr.mem).2 (hI.owned_runs hr).1 hr
    · rw [requestsIn, issuedIn_env]
      exact ih.acts hI hacts hpool

/-- A poll shows the query of a request. -/
theorem Originates.showsRequest {requests : List (CreateQueryRequestDto × Uuid)}
    (h : Originates requests s) (id : Uuid) :
    ShowsRequest requests (fetchQueryResultsAsync s.store.db id) := by
  intro queryId hid
  cases hfind : s.store.db.findQuery id with
  | none =>
    rw [fetchQueryResultsAsync, hfind] at hid
    cases hid
  | some query =>
    obtain ⟨row, hrow, -⟩ := Database.findQuery_eq_some.mp hfind
    obtain ⟨hid', -, hcb, -⟩ := fetchQueryResultsAsync_of_row hrow
    obtain rfl : id = queryId := ResponseId.uuid.inj (hid'.symm.trans hid)
    obtain ⟨r, hr, rfl⟩ := List.mem_map.mp (h.query id (Database.mem_of_lookup hrow))
    obtain ⟨listing, horigin⟩ := h.origin r hr
    exact ⟨r.1, hr, hcb.trans (horigin.callbackUrl row hrow),
      horigin.perm_paths (coversRows_fetch hrow)⟩

/-- Only handlers post. -/
theorem Reacts.posts_cases {s s' : Store} {t : Task} {c : Choice} {ts : List Task}
    (h : Reacts cfg s t c s' ts) : s'.posts = s.posts ∨
      ∃ u e, t = .handler u ∧ Handler.Fires s.db s.cache u.dto u.phase c e ∧ s'.db = e.db ∧
        s'.posts = s.posts ++ e.posts := by
  cases h with
  | @creation t c e h =>
    left
    have hnone : e.posts = [] := by
      generalize t.phase = phase at h
      cases h <;> rfl
    show s.posts ++ e.posts = s.posts
    rw [hnone, List.append_nil]
  | @handler t c e h => exact .inr ⟨t, e, rfl, h, rfl, rfl⟩
  | _ => exact .inl rfl

/-- A callback answers the request its query stems from. -/
theorem Originates.repliesToRequest {requests : List (CreateQueryRequestDto × Uuid)}
    (h : Originates requests s') {u : Handler} {history : List (Reaction Store Task Choice)}
    {db : Database} {rcache : ResourceCollection} {c : Choice} {e : Effect Handler}
    {p : Notification} (hok : u.Ok db) (hrecalls : u.phase.Recalls history db u.dto)
    (hfires : Handler.Fires db rcache u.dto u.phase c e) (hdb : s'.store.db = e.db)
    (hp : p ∈ e.posts) : RepliesToRequest requests p := by
  obtain ⟨dto, phase⟩ := u
  obtain ⟨subquery, updated, latest, rfl, hsave, hnotified⟩ := Handler.saves_of_posts hfires hp
  obtain ⟨hid, ⟨row, hrow, -, hurl⟩, hcovers, -⟩ := hok.posts hrecalls hsave hnotified
  obtain ⟨-, -, hown⟩ := hok.saved hsave
  rw [← hdb] at hrow hcovers hown
  obtain ⟨r, hr, hrid⟩ := List.mem_map.mp (h.query dto.queryId (Database.mem_of_lookup hrow))
  obtain ⟨listing, horigin⟩ := h.origin r hr
  rw [← hrid] at hid hrow hcovers hown
  refine ⟨r.1, r.2, hr, hid, (horigin.callbackUrl row hrow).symm.trans hurl, ?_⟩
  -- The event's own row is there, so the body is not empty.
  refine (horigin.perm_paths hcovers).resolve_left fun hnone => ?_
  rw [hnone] at hcovers
  exact nomatch hcovers.covers dto.id _ hown rfl

/-- Only creations respond, with the callback of their query. -/
theorem Reacts.created_cases {s s' : Store} {t : Task} {c : Choice} {ts : List Task}
    (h : Reacts cfg s t c s' ts) : s'.created = s.created ∨
      ∃ u r, t = .creation u ∧ r.callbackUrl = u.query.callbackUrl ∧
        s'.created = s.created ++ [r] := by
  by_cases hcreation : ∃ u, t = .creation u
  · obtain ⟨⟨query, phase⟩, rfl⟩ := hcreation
    obtain ⟨e, hfires, rfl, -⟩ := h.of_creation
    cases hfires with
    | hit => exact .inr ⟨_, _, rfl, rfl, rfl⟩
    | savedSubqueries => exact .inr ⟨_, _, rfl, rfl, rfl⟩
    | _ => exact .inl (List.append_nil _)
  · exact .inl (h.created_eq fun u hu => hcreation ⟨u, hu⟩)

/-- A creation has the callback of a request. -/
theorem Originates.callbackUrl_of_creation {requests : List (CreateQueryRequestDto × Uuid)}
    (h : Originates requests s) {u : Creation} (hu : .creation u ∈ s.pool) :
    ∃ q ∈ requests, u.query.callbackUrl = q.1.callbackUrl := by
  obtain ⟨q, hq, hid⟩ := List.mem_map.mp (h.creation u hu)
  obtain ⟨listing, horigin⟩ := h.origin q hq
  exact ⟨q, hq, (horigin.creation u hu hid.symm).2⟩

/-- Whatever clients have been shown stems from the requests. -/
structure ShowsRequests (requests : List (CreateQueryRequestDto × Uuid)) (s : Store) : Prop where
  polled : ∀ r ∈ s.polled, ShowsRequest requests r
  posts : ∀ p ∈ s.posts, RepliesToRequest requests p
  created : ∀ r ∈ s.created, ∃ q ∈ requests, r.callbackUrl = q.1.callbackUrl

/-- It still does when there are more. -/
theorem ShowsRequests.mono {requests requests' : List (CreateQueryRequestDto × Uuid)} {s : Store}
    (h : ShowsRequests requests s) (hsub : requests ⊆ requests') :
    ShowsRequests requests' s where
  polled r hr queryId hid := by
    obtain ⟨dto, hdto, hshown⟩ := h.polled r hr queryId hid
    exact ⟨dto, hsub hdto, hshown⟩
  posts p hp := by
    obtain ⟨dto, queryId, hdto, hanswers⟩ := h.posts p hp
    exact ⟨dto, queryId, hsub hdto, hanswers⟩
  created r hr := by
    obtain ⟨q, hq, hcb⟩ := h.created r hr
    exact ⟨q, hsub hq, hcb⟩

/-- **What a reaction shows** stems from the requests: it posts for a query that is stored
by then, or responds for the query it creates. -/
theorem ShowsRequests.runs {requests : List (CreateQueryRequestDto × Uuid)}
    {history : List (Reaction Store Task Choice)} {i : ℕ} {c : Choice} {t : Task}
    {rest ts : List Task} (h : ShowsRequests requests s.store) (hbefore : Originates requests s)
    (hafter : Originates requests s') (hok : t.Asserts s.store.db)
    (hrecalls : t.Recalls history s.store) (hr : (system cfg).Runs s i c s' t rest ts) :
    ShowsRequests requests s'.store := by
  have hreacts := reacts_of_react hr.react
  have hpolled : s'.store.polled = s.store.polled := by
    generalize s'.store = st' at hreacts
    cases hreacts <;> rfl
  refine ⟨fun r hr' => h.polled r (hpolled ▸ hr'), fun p hp => ?_, fun r hr' => ?_⟩
  · rcases hreacts.posts_cases with hsame | ⟨u, e, rfl, hfires, hdb, hposts⟩
    · exact h.posts p (hsame ▸ hp)
    · rw [hposts, List.mem_append] at hp
      rcases hp with hp | hp
      · exact h.posts p hp
      · exact hafter.repliesToRequest hok.2 hrecalls hfires hdb hp
  · rcases hreacts.created_cases with hsame | ⟨u, r', rfl, hcb, hcreated⟩
    · exact h.created r (hsame ▸ hr')
    · rw [hcreated, List.mem_append, List.mem_singleton] at hr'
      rcases hr' with hr' | rfl
      · exact h.created r hr'
      · obtain ⟨q, hq, hsame⟩ := hbefore.callbackUrl_of_creation hr.mem
        exact ⟨q, hq, hcb.trans hsame⟩

/-- From outside only polls show anything, and they show queries of requests. -/
theorem ShowsRequests.acts {requests : List (CreateQueryRequestDto × Uuid)} {store : Store}
    {e : EnvAct} {ts : List Task} (h : ShowsRequests requests s.store)
    (hbefore : Originates requests s) (hacts : Acts s.store e store ts) :
    ShowsRequests requests store := by
  cases hacts with
  | poll id =>
    refine ⟨fun r hr => ?_, h.posts, h.created⟩
    rcases List.mem_append.mp hr with hr | hr
    · exact h.polled r hr
    · obtain rfl := List.mem_singleton.mp hr
      exact hbefore.showsRequest id
  | _ => exact ⟨h.polled, h.posts, h.created⟩

/-- **Clients are shown what was requested.** -/
theorem showsRequests_of_run (h : Run (system cfg).step (startingWith cache) tr s) :
    ShowsRequests (requestsIn tr) s.store := by
  induction h with
  | nil =>
    refine ⟨?_, ?_, ?_⟩
    · exact fun r hr => nomatch hr
    · exact fun p hp => nomatch hp
    · exact fun r hr => nomatch hr
  | @snoc tr s s' a h hs ih =>
    have hI : (discipline cfg).Inv s := Discipline.inv_of_run h (inv_startingWith cfg cache)
    have hbefore := originates_of_run h
    rcases system_step_cases hs with ⟨i, c, t, rest, ts, rfl, hr, -⟩ | ⟨e, ts, -, hacts, -⟩
    · have hafter := originates_of_run (h.snoc hs)
      have hrecalls := (handlerHistory cfg).asserts_of_run h (inv_startingWith cfg cache) rfl t
        hr.mem
      rw [requestsIn, issuedIn_run] at hafter ⊢
      exact ih.runs hbefore hafter (hI.ok t hr.mem).2 hrecalls hr
    · exact (ih.acts hbefore hacts).mono (requestsIn_subset tr (s, a))

/-- **Polls show what was requested.**  In every run no two requests get the same query id,
and whatever a poll shows for an id stems from the request that got it: its callback, and
no subqueries yet or exactly one for each path it names, repeated paths included. -/
theorem polls_show_requests (h : Run (system cfg).step (startingWith cache) tr s) :
    ((requestsIn tr).map Prod.snd).Nodup ∧
      ∀ r ∈ s.store.polled, ShowsRequest (requestsIn tr) r :=
  ⟨(originates_of_run h).nodup, (showsRequests_of_run h).polled⟩

/-- A query that names one path twice. -/
def onePathTwice : List (Act Choice EnvAct) :=
  [.env (.create ⟨["people/1", "people/1"], none⟩ [⟨0⟩, ⟨1⟩] ⟨2⟩), .run 0 (.read 0),
    .run 0 (.read 1), .run 0 .proceed, .run 0 .proceed, .env (.poll ⟨2⟩), .run 0 .proceed,
    .env (.poll ⟨2⟩)]

/-- A poll before its rows are saved shows none of them, and one after that shows both. -/
theorem polls_show_requests_onePathTwice :
    ∃ (tr : List (Sys × Act Choice EnvAct)) (s : Sys),
      (s.store.polled.map fun r => r.subqueries.map SubqueryDto.path)
        = [[], ["people/1", "people/1"]] ∧
      ((requestsIn tr).map Prod.snd).Nodup ∧
      ∀ r ∈ s.store.polled, ShowsRequest (requestsIn tr) r := by
  have hexec : (exec (system ⟨1, "http://swapi", some⟩).step (startingWith .empty) onePathTwice).any
      (fun s => (s.store.polled.map fun r => r.subqueries.map SubqueryDto.path)
        = [[], ["people/1", "people/1"]]) = true := by
    decide +kernel
  obtain ⟨tr, s, hs, -, hp⟩ := exists_run_of_exec _ hexec
  exact ⟨tr, s, of_decide_eq_true hp, polls_show_requests hs⟩

/-- **Callbacks answer requests.**  In every run, every POST goes to the callback of the
request its query stems from, and lists exactly the paths of this request, each as often
as it names it. -/
theorem posts_show_requests (h : Run (system cfg).step (startingWith cache) tr s) :
    ∀ p ∈ s.store.posts, RepliesToRequest (requestsIn tr) p :=
  (showsRequests_of_run h).posts

end Runs

/-- The callback of a query for one path. -/
theorem posts_show_requests_firstSave :
    ∃ (tr : List (Sys × Act Choice EnvAct)) (s : Sys),
      s.store.posts.map Notification.url = ["http://localhost:3000"] ∧
      ∀ p ∈ s.store.posts, RepliesToRequest (requestsIn tr) p := by
  have hexec : (exec (system ⟨1, "http://swapi", some⟩).step (startingWith .empty)
      (firstResult ++ firstSave)).any
      (fun s => s.store.posts.map Notification.url = ["http://localhost:3000"]) = true := by
    decide +kernel
  obtain ⟨tr, s, hs, -, hp⟩ := exists_run_of_exec _ hexec
  exact ⟨tr, s, of_decide_eq_true hp, posts_show_requests hs⟩

end SwapiService
