import SwapiService.FetchOnce
import SwapiService.Origins

/-!
# Requests that share no path

What goes wrong without a fault goes wrong where a path is named twice: a creation folds
its subqueries by their path, a connector drops an event whose path another one has had
cached, and two connectors fetch one path at the same time.  If no path is requested
twice, none of this can happen, whatever is interleaved: every request that can be stored
is served in full, and every path is fetched exactly once, as long as what the data source
returns gets past the pipe.

## Main definitions

* `Unshared` — no path is requested twice, and none is a property of `Object.prototype`.
* `BodiesArrive` — every body a GET returned arrives at the handlers, and is truthy there.
* `ServedInFull` — a poll shows each path of the request, with its result.
* `Begun` — the query of a request is being created, or has its rows.

## Main results

* `not_fetched` — what is still to be fetched has not been fetched before.
* `serving_of_run` — no id is dropped, and every query is created.
* `served_if_unshared` — all requests are served in full.
-/

namespace SwapiService

open TaskPool Transition

/-- No path is requested twice, within one request or by two, and none is a property of
`Object.prototype`. -/
structure Unshared (requests : List (CreateQueryRequestDto × Uuid)) : Prop where
  nodup : (requests.flatMap fun r => r.1.subqueries).Nodup
  ordinary : ∀ r ∈ requests, ∀ path ∈ r.1.subqueries, path ∉ PlainObject.objectPrototypeKeys

/-- Every body a GET returned arrives at the handlers, and is truthy there. -/
def BodiesArrive (cfg : Settings) (gets : List HttpGet) : Prop :=
  ∀ g ∈ gets, ∀ body, g.response = some body →
    ∃ r, cfg.transform body = some r ∧ r.truthy = true

/-- A poll for the query of the request shows one entry for each path it names, with what
a body that a GET of this path returned arrives as. -/
def ServedInFull (cfg : Settings) (s : Sys) (r : CreateQueryRequestDto × Uuid) : Prop :=
  ((fetchQueryResultsAsync s.store.db r.2).subqueries.map SubqueryDto.path).Perm r.1.subqueries ∧
    ∀ d ∈ (fetchQueryResultsAsync s.store.db r.2).subqueries,
      d.result ≠ .null ∧ Received cfg s.store.gets d.path d.result

/-- The query of the request is being created, or has rows. -/
def Begun (s : Sys) (r : CreateQueryRequestDto × Uuid) : Prop :=
  (∃ u : Creation, .creation u ∈ s.pool ∧ u.query.id = r.2) ∨ ¬ s.store.db.Childless r.2

/-! ### Requests -/

section Requests

variable {requests requests' : List (CreateQueryRequestDto × Uuid)}

theorem Unshared.of_append (h : Unshared (requests ++ requests')) : Unshared requests where
  nodup := by
    have hall := h.nodup
    rw [List.flatMap_append] at hall
    exact hall.of_append_left
  ordinary r hr := h.ordinary r (List.mem_append_left _ hr)

/-- Each request names distinct paths. -/
theorem Unshared.nodup_subqueries (h : Unshared requests) {r : CreateQueryRequestDto × Uuid}
    (hr : r ∈ requests) : r.1.subqueries.Nodup :=
  (List.nodup_flatMap.mp h.nodup).1 r hr

/-- The URLs requests pay for: those of all paths. -/
theorem Unshared.urls_eq (h : Unshared requests) (baseUrl : String) :
    (requests.flatMap fun r => r.1.subqueries.dedup.map (resourceUrl baseUrl))
      = requests.flatMap fun r => r.1.subqueries.map (resourceUrl baseUrl) := by
  refine List.flatMap_congr fun r hr => ?_
  rw [(h.nodup_subqueries hr).dedup]

theorem Unshared.nodup_urls (h : Unshared requests) (baseUrl : String) :
    (requests.flatMap fun r => r.1.subqueries.map (resourceUrl baseUrl)).Nodup := by
  rw [← List.map_flatMap]
  exact h.nodup.map (resourceUrl_injective baseUrl)

theorem requestsIn_append (tr tr' : List (Sys × Act Choice EnvAct)) :
    requestsIn (tr ++ tr') = requestsIn tr ++ requestsIn tr' := by
  rw [requestsIn, requestsIn, requestsIn, issuedIn, issuedIn, issuedIn, List.flatMap_append]

theorem BodiesArrive.of_subset {cfg : Settings} {gets gets' : List HttpGet}
    (h : BodiesArrive cfg gets') (hsub : gets ⊆ gets') : BodiesArrive cfg gets :=
  fun g hg => h g (hsub hg)

/-- What was fetched arrives. -/
theorem BodiesArrive.received {cfg : Settings} {gets : List HttpGet} (h : BodiesArrive cfg gets)
    {path : String} {body : Json} (hbody : Fetched cfg.swapiBaseUrl gets path body) :
    ∃ r, cfg.transform body = some r ∧ r.truthy = true := by
  obtain ⟨g, hg, hresponse, -⟩ := hbody
  exact h g hg body hresponse

/-- A creation works on the paths of its request, for its callback. -/
theorem Origin.requested {s : Sys} {r : CreateQueryRequestDto × Uuid}
    {listing : List (Uuid × String)} (h : Origin s r listing) {u : Creation}
    (hu : .creation u ∈ s.pool) (hid : u.query.id = r.2) :
    u.requested = r.1.subqueries ∧ u.query.callbackUrl = r.1.callbackUrl := by
  obtain ⟨hlisting, hurl⟩ := h.creation u hu hid
  refine ⟨?_, hurl⟩
  rw [← h.paths, ← hlisting]
  rfl

end Requests

/-! ### One reaction -/

section Reactions

variable {db : Database} {cache : ResourceCollection} {query : QueryEntity} {phase : CreationPhase}
  {c : Choice} {e : Effect Creation}

/-- **A creation goes on, or gives its query rows**, unless it fails, its texts cannot be
stored, or a result was received for one of its paths. -/
theorem Creation.begun_of_fires {F : String → Json → Prop}
    (hok : (⟨query, phase⟩ : Creation).Ok db) (hnd : (⟨query, phase⟩ : Creation).owned.Nodup)
    (hsourced : (⟨query, phase⟩ : Creation).Sourced F) (h : Fires db cache query phase c e)
    (hc : c ≠ .fail) (hurl : query.callbackUrl.all storable = true)
    (hpaths : ∀ path ∈ (⟨query, phase⟩ : Creation).requested, storable path = true)
    (hne : (⟨query, phase⟩ : Creation).requested ≠ [])
    (hnone : ∀ path ∈ (⟨query, phase⟩ : Creation).requested, ∀ r, ¬ F path r) :
    (∃ v, e.outcome = .suspended v ∧ v.query.id = query.id) ∨ ¬ e.db.Childless query.id := by
  cases h with
  | rejects => exact absurd rfl hc
  | reads => exact .inl ⟨_, rfl, rfl⟩
  | miss => exact .inl ⟨_, rfl, rfl⟩
  | savedQuery => exact .inl ⟨_, rfl, rfl⟩
  | refusedQuery hrefused =>
    rw [hurl] at hrefused
    cases hrefused
  | unsaved hsave =>
    have hstorable : query.Storable := fun e he =>
      hpaths e.path (List.mem_map_of_mem (List.mem_map_of_mem he))
    obtain ⟨db', hsave', -⟩ := hok.saves hnd hstorable
    rw [hsave] at hsave'
    cases hsave'
  | hit reads newSubqueries hall htruthy =>
    -- A path would have been found in the cache.
    exfalso
    have hpaths : newSubqueries.map SubqueryDto.path
        = (⟨query, .readCache reads⟩ : Creation).requested := by
      have hlisting := congrArg (List.map Prod.snd)
        (map_listing_allReplies (hok.reads reads rfl).2 hall)
      rw [List.map_map] at hlisting
      exact hlisting
    obtain ⟨path, hpath⟩ := List.exists_mem_of_ne_nil _ hne
    rw [← hpaths] at hpath hnone
    obtain ⟨d, hd, rfl⟩ := List.mem_map.mp hpath
    obtain ⟨-, -, -, hv⟩ := (ok_allReplies (hsourced.2 reads rfl) hall).2 d hd
    have ht : d.result.truthy = true := List.all_eq_true.mp htruthy d hd
    exact hnone d.path (List.mem_map_of_mem hd) d.result (hv (Json.ne_null_of_truthy ht))
  | savedSubqueries db' hsave =>
    obtain ⟨-, -, hrows⟩ := hok.saved hnd hsave
    obtain ⟨path, hpath⟩ := List.exists_mem_of_ne_nil _ hne
    obtain ⟨p, hp, -⟩ := List.mem_map.mp hpath
    obtain ⟨q, hq, -⟩ := List.mem_map.mp hp
    exact .inr fun hnone => hnone q.id _ (hrows q hq) rfl

/-- A query keeps its rows. -/
theorem Database.Frame.not_childless {ids : List Uuid} {db' : Database} (h : Frame ids db db')
    {queryId : Uuid} (hrows : ¬ db.Childless queryId) : ¬ db'.Childless queryId := by
  intro hnone
  refine hrows fun id row hrow hq => ?_
  obtain ⟨row', hrow', -, hq'⟩ := h.keeps id row hrow
  exact hnone id row' hrow' (hq'.trans hq)

end Reactions

/-! ### Runs -/

section Runs

variable {cfg : Settings} {tr : List (Sys × Act Choice EnvAct)} {s s' : Sys}

/-- **What is still to be fetched has not been fetched before**, as each path has one
ticket. -/
theorem not_fetched (h : Run (system cfg).step initial tr s) (hu : Unshared (requestsIn tr))
    {t : Task} (ht : t ∈ s.pool) {path : String}
    (hpath : resourceUrl cfg.swapiBaseUrl path ∈ (getTickets cfg).carried t) (r : Json) :
    ¬ Fetched cfg.swapiBaseUrl s.store.gets path r := by
  have hnd : ((getTickets cfg).all s).Nodup := by
    have hall := (getTickets cfg).subperm_of_run taskSound_of_run h
    have hissued := issuedIn_request
      (fun r => r.1.subqueries.dedup.map (resourceUrl cfg.swapiBaseUrl)) tr
    obtain ⟨tickets, hperm, hsub⟩ := hall
    have hsub' : tickets.Sublist ((requestsIn tr).flatMap fun r =>
        r.1.subqueries.dedup.map (resourceUrl cfg.swapiBaseUrl)) := hissued ▸ hsub
    rw [hu.urls_eq] at hsub'
    exact hperm.nodup_iff.mp (hsub'.nodup (hu.nodup_urls _))
  rintro ⟨g, hg, -, hurl⟩
  have hspent : resourceUrl cfg.swapiBaseUrl path ∈ s.store.gets.map HttpGet.url := by
    rw [← (hurl path).mpr rfl]
    exact List.mem_map_of_mem hg
  exact (List.nodup_append'.mp hnd).2.2 hspent (List.mem_flatMap.mpr ⟨t, ht, hpath⟩)

/-- Nor has anything been received for it. -/
theorem not_received (h : Run (system cfg).step initial tr s) (hu : Unshared (requestsIn tr))
    {t : Task} (ht : t ∈ s.pool) {path : String}
    (hpath : resourceUrl cfg.swapiBaseUrl path ∈ (getTickets cfg).carried t) (r : Json) :
    ¬ Received cfg s.store.gets path r := by
  rintro ⟨body, hbody, -⟩
  exact not_fetched h hu ht hpath body hbody

/-- No step takes a GET back. -/
theorem gets_subset_of_step (h : Run (system cfg).step initial tr s) {a : Act Choice EnvAct}
    (hs : (system cfg).step s a = some s') : s.store.gets ⊆ s'.store.gets := by
  have hI := inv_of_reachable ⟨tr, h⟩
  exact (allSourced_step (sourced_of_run h) (fun _ => writesOk_of_inv hI) hs).1

/-- **Every step lets the ids pass**: creations fold distinct paths, connectors find
nothing in the cache, and what was fetched gets past the pipe and is a result. -/
theorem keeps_of_unshared (h : Run (system cfg).step initial tr s) (hu : Unshared (requestsIn tr))
    (harrive : BodiesArrive cfg s.store.gets) (a : Act Choice EnvAct) : Keeps cfg s a := by
  cases a with
  | env e => trivial
  | run i c =>
    intro t ht
    have hmem : t ∈ s.pool := List.mem_of_getElem? ht
    cases t with
    | creation u =>
      intro hphase _
      obtain ⟨r, hr, hid⟩ := List.mem_map.mp ((originates_of_run h).creation u hmem)
      obtain ⟨listing, horigin⟩ := (originates_of_run h).origin r hr
      obtain ⟨hpaths, -⟩ := horigin.requested hmem hid.symm
      have hquery : u.query.subqueries.map SubqueryEntity.path = r.1.subqueries := by
        rw [← hpaths, Creation.requested, Creation.listing, hphase]
        simp only [List.map_map]
        rfl
      constructor
      · have hsub : (missingSubqueries u.query).Sublist u.query.subqueries := List.filter_sublist
        exact (hsub.map _).nodup (hquery ▸ hu.nodup_subqueries hr)
      · intro e he
        have hpath : e.path ∈ u.query.subqueries.map SubqueryEntity.path :=
          List.mem_map_of_mem (mem_missingSubqueries.mp he).1
        exact hu.ordinary r hr e.path (hquery ▸ hpath)
    | connector f =>
      intro hphase htruthy
      have hsourced := (sourced_of_run h).1.cached f.dto.path
      exact not_received h hu hmem List.mem_cons_self _ (hsourced (Json.ne_null_of_truthy htruthy))
    | receiveToQueryManager dto =>
      obtain ⟨r, hr, -⟩ := harrive.received ((sourced_of_run h).2 _ hmem)
      show cfg.transform dto.result ≠ none
      rw [hr]
      exact Option.some_ne_none r
    | handler u =>
      obtain ⟨dto, phase⟩ := u
      cases phase with
      | saveSubquery subquery updated latest =>
        obtain ⟨⟨body, hbody, hpipe⟩, -⟩ := (sourced_of_run h).2 _ hmem
        obtain ⟨r, hr, htruthy⟩ := harrive.received hbody
        obtain rfl := Option.some.inj (hr.symm.trans hpipe)
        exact Json.ne_null_of_truthy htruthy
      | _ => trivial
    | _ => trivial

/-- A reaction without a fault leaves what has begun as it is. -/
theorem Begun.runs (h : Run (system cfg).step initial tr s) (hu : Unshared (requestsIn tr))
    {i : ℕ} {c : Choice} {t : Task} {rest ts : List Task} (hc : c ≠ .fail)
    (hr : (system cfg).Runs s i c s' t rest ts) {r : CreateQueryRequestDto × Uuid}
    (hmem : r ∈ requestsIn tr) (hstorable : r.1.Storable) (hne : r.1.subqueries ≠ [])
    (hbegun : Begun s r) : Begun s' r := by
  have hreacts := reacts_of_react hr.react
  have hI := inv_of_reachable ⟨tr, h⟩
  have hok := (hI.ok t hr.mem).2
  have hnd := (hI.owned_runs hr).1
  rcases hbegun with ⟨u, hpool, hid⟩ | hrows
  · rcases List.mem_cons.mp (hr.pool.mem_iff.mp hpool) with rfl | hrest
    · -- The creation itself runs: nothing was received for its paths.
      obtain ⟨listing, horigin⟩ := (originates_of_run h).origin r hmem
      obtain ⟨hpaths, hurl⟩ := horigin.requested hpool hid
      have hnone : ∀ path ∈ u.requested, ∀ result,
          ¬ Received cfg s.store.gets path result := fun path hpath =>
        not_received h hu hpool (List.mem_map_of_mem (List.mem_dedup.mpr hpath))
      obtain ⟨e, hfires, hstore, rfl⟩ := hreacts.of_creation
      rcases Creation.begun_of_fires hok hnd ((sourced_of_run h).2 _ hpool) hfires hc
        (hurl ▸ hstorable.1) (hpaths ▸ hstorable.2) (hpaths ▸ hne) hnone with ⟨v, hv, hvid⟩ | hrows
      · refine .inl ⟨v, hr.mem_pool'.mpr (.inr ?_), hvid.trans hid⟩
        simp [Effect.tasks, hv]
      · right
        rw [hstore, ← hid]
        exact hrows
    · exact .inl ⟨u, hr.mem_pool'.mpr (.inl hrest), hid⟩
  · exact .inr ((hreacts.frame hok hnd).not_childless hrows)

/-- **No id is dropped, and every query is created**, in every run without faults in which
no path is requested twice, all requests can be stored and all bodies arrive. -/
theorem serving_of_run (h : Run (system cfg).step initial tr s)
    (hf : ∀ p ∈ tr, faultless p.2 = true) (hu : Unshared (requestsIn tr))
    (hstorable : ∀ r ∈ requestsIn tr, r.1.Storable) (harrive : BodiesArrive cfg s.store.gets) :
    AllOnTheWay s ∧ ∀ r ∈ requestsIn tr, r.1.subqueries ≠ [] → Begun s r := by
  induction h with
  | nil =>
    refine ⟨fun id row hrow => ?_, fun r hr => nomatch hr⟩
    simp [initial, Database.empty] at hrow
  | @snoc tr s s' a h hs ih =>
    rw [requestsIn_append] at hu hstorable
    have hf' : ∀ p ∈ tr, faultless p.2 = true := fun p hp => hf p (List.mem_append_left _ hp)
    have hfault : faultless a = true := hf (s, a) (by simp)
    have hu' := hu.of_append
    have hstorable' : ∀ r ∈ requestsIn tr, r.1.Storable := fun r hr =>
      hstorable r (List.mem_append_left _ hr)
    have harrive' := harrive.of_subset (gets_subset_of_step h hs)
    obtain ⟨hall, hbegun⟩ := ih hf' hu' hstorable' harrive'
    have hI := inv_of_reachable ⟨tr, h⟩
    constructor
    · exact (allOnTheWay_step hI hall hfault hs).mpr (keeps_of_unshared h hu' harrive' a)
    · intro r hr hne
      rcases system_step_cases hs with ⟨i, c, t, rest, ts, rfl, hrun, -⟩ | ⟨e, ts, rfl, hacts, hp⟩
      · rw [requestsIn, issuedIn_run] at hr
        have hc : c ≠ .fail := by
          rintro rfl
          exact absurd hfault (by simp [faultless])
        exact Begun.runs h hu' hc hrun hr (hstorable' r hr) hne (hbegun r hr hne)
      · rw [requestsIn, issuedIn_env] at hr
        rcases List.mem_append.mp hr with hr | hr
        · rcases hbegun r hr hne with ⟨u, hpool, hid⟩ | hrows
          · exact .inl ⟨u, hp ▸ List.mem_append_left _ hpool, hid⟩
          · right
            rw [hacts.db]
            exact hrows
        · -- A new request puts its creation into the pool.
          generalize s'.store = store at hacts
          cases hacts with
          | create dto ids queryId =>
            obtain rfl := List.mem_singleton.mp hr
            exact .inl ⟨_, hp ▸ List.mem_append_right _ List.mem_cons_self, rfl⟩
          | _ => cases hr

/-- A query that was created is served in full when nothing is in flight. -/
theorem Originates.servedInFull {requests : List (CreateQueryRequestDto × Uuid)}
    (h : Originates requests s) (hI : (discipline cfg).Inv s)
    (hsourced : s.store.Sourced (Received cfg s.store.gets)) (hall : AllOnTheWay s)
    (hq : s.pool = []) {r : CreateQueryRequestDto × Uuid} (hr : r ∈ requests)
    (hbegun : r.1.subqueries ≠ [] → Begun s r) : ServedInFull cfg s r := by
  have hrows : r.1.subqueries ≠ [] → ¬ s.store.db.Childless r.2 := by
    intro hne
    refine (hbegun hne).resolve_left ?_
    rintro ⟨u, hu, -⟩
    rw [hq] at hu
    cases hu
  constructor
  · obtain ⟨listing, horigin⟩ := h.origin r hr
    cases hrow : s.store.db.queries.lookup r.2 with
    | none =>
      -- Such a query has no rows, so no path was requested.
      have hempty : r.1.subqueries = [] := by
        by_contra hne
        refine hrows hne fun id row hsub hid => ?_
        have hmem := hI.good.foreignKey id row hsub
        rw [hid, ← AList.lookup_isSome, hrow] at hmem
        cases hmem
      have hfind : s.store.db.findQuery r.2 = none := by
        rw [Database.findQuery, hrow]
        rfl
      rw [fetchQueryResultsAsync, hfind, hempty]
      exact .refl _
    | some row =>
      have hcovers := coversRows_fetch hrow
      rcases horigin.perm_paths hcovers with hnil | hperm
      · have hempty : r.1.subqueries = [] := by
          by_contra hne
          refine hrows hne fun id row' hsub hid => ?_
          have hmem := hcovers.covers id row' hsub hid
          rw [hnil] at hmem
          cases hmem
        rw [hnil, hempty]
        exact .refl _
      · exact hperm
  · intro d hd
    obtain ⟨-, -, hrow⟩ := mem_fetchQueryResultsAsync.mp hd
    have hne : d.result ≠ .null := by
      intro hnull
      have hmem := hall d.id _ hrow hnull
      rw [hq] at hmem
      cases hmem
    exact ⟨hne, hsourced.row d.id _ hrow hne⟩

/-- **Requests that share no path are served in full.**  In every run without faults in
which no path is requested twice, and none that is a property of `Object.prototype`, all
requests can be stored and every body arrives as something truthy, once nothing is in
flight a poll for any request shows one entry for each path it names, with what a body that
a GET of this path returned arrives as; and each requested path was fetched exactly once. -/
theorem served_if_unshared (h : Run (system cfg).step initial tr s)
    (hf : ∀ p ∈ tr, faultless p.2 = true) (hu : Unshared (requestsIn tr))
    (hstorable : ∀ r ∈ requestsIn tr, r.1.Storable) (harrive : BodiesArrive cfg s.store.gets)
    (hq : s.pool = []) :
    (∀ r ∈ requestsIn tr, ServedInFull cfg s r) ∧
      (s.store.gets.map HttpGet.url).Perm
        ((requestsIn tr).flatMap fun r => r.1.subqueries.map (resourceUrl cfg.swapiBaseUrl)) := by
  obtain ⟨hall, hbegun⟩ := serving_of_run h hf hu hstorable harrive
  have hserved : ∀ r ∈ requestsIn tr, ServedInFull cfg s r := fun r hr =>
    (originates_of_run h).servedInFull (inv_of_reachable ⟨tr, h⟩)
      (sourced_of_run h).1 hall hq hr (hbegun r hr)
  refine ⟨hserved, List.Subperm.antisymm ?_ ?_⟩
  · -- No GET goes without a ticket.
    have hcovered := (getTickets cfg).subperm_of_run taskSound_of_run h
    have hissued := issuedIn_request
      (fun r => r.1.subqueries.dedup.map (resourceUrl cfg.swapiBaseUrl)) tr
    rw [hu.urls_eq] at hissued
    rw [← hissued]
    exact (List.sublist_append_left _ _).subperm.trans hcovered
  · refine (hu.nodup_urls _).subperm fun url hurl => ?_
    obtain ⟨r, hr, hmem⟩ := List.mem_flatMap.mp hurl
    obtain ⟨path, hpath, rfl⟩ := List.mem_map.mp hmem
    obtain ⟨hperm, hentries⟩ := hserved r hr
    obtain ⟨d, hd, rfl⟩ := List.mem_map.mp (hperm.mem_iff.mpr hpath)
    obtain ⟨-, body, ⟨g, hg, -, hsame⟩, -⟩ := hentries d hd
    rw [← (hsame d.path).mpr rfl]
    exact List.mem_map_of_mem hg

end Runs

/-- Two requests at the same time, one for two paths and one for a third. -/
def twoRequests : List (Act Choice EnvAct) :=
  [.env (.create ⟨["people/1", "people/2"], none⟩ [⟨0⟩, ⟨1⟩] ⟨2⟩),
    .env (.create ⟨["people/3"], none⟩ [⟨3⟩] ⟨4⟩),
    .run 0 (.read 1), .run 1 (.read 0), .run 0 (.read 0), .run 0 .proceed, .run 1 .proceed,
    .run 0 .proceed, .run 0 .proceed, .run 0 .proceed, .run 0 .proceed,
    -- The first path of the first request.
    .run 2 .proceed, .run 2 .proceed, .run 3 .proceed, .run 3 (.draw ⟨10⟩), .run 3 .proceed,
    .run 2 .proceed, .run 2 .proceed, .run 2 (.body (.structured "\x7b\x7d")), .run 3 .proceed,
    .run 3 .proceed, .run 3 .proceed, .run 2 .proceed, .run 2 .proceed, .run 2 .proceed,
    .run 2 (.read 0), .run 2 (.read 1), .run 2 .proceed, .run 2 .proceed, .run 2 .proceed,
    -- The path of the second request.
    .run 1 .proceed, .run 1 .proceed, .run 1 .proceed, .run 1 .proceed, .run 2 .proceed,
    .run 2 (.draw ⟨11⟩), .run 2 .proceed, .run 1 .proceed, .run 1 .proceed,
    .run 1 (.body (.structured "\x7b\x7d")), .run 2 .proceed, .run 2 .proceed, .run 2 .proceed,
    .run 1 .proceed, .run 1 .proceed, .run 1 .proceed, .run 1 (.read 0), .run 1 .proceed,
    .run 1 .proceed, .run 1 .proceed,
    -- The second path of the first one.
    .run 0 .proceed, .run 0 .proceed, .run 0 .proceed, .run 1 .proceed, .run 1 (.draw ⟨12⟩),
    .run 1 .proceed, .run 0 .proceed, .run 0 .proceed, .run 0 (.body (.structured "\x7b\x7d")),
    .run 1 .proceed, .run 1 .proceed, .run 1 .proceed, .run 0 .proceed, .run 0 .proceed,
    .run 0 .proceed, .run 0 (.read 0), .run 0 (.read 1), .run 0 .proceed, .run 0 .proceed,
    .run 0 .proceed]

theorem served_if_unshared_twoRequests :
    ∃ s : Sys, s.store.gets.map HttpGet.url
        = ["http://swapi/people/1", "http://swapi/people/3", "http://swapi/people/2"] ∧
      ServedInFull ⟨3, "http://swapi", some⟩ s (⟨["people/1", "people/2"], none⟩, ⟨2⟩) ∧
      ServedInFull ⟨3, "http://swapi", some⟩ s (⟨["people/3"], none⟩, ⟨4⟩) := by
  have hexec : (exec (system ⟨3, "http://swapi", some⟩).step initial twoRequests).any (fun s =>
      s.pool = [] ∧ s.store.gets
        = ["people/1", "people/3", "people/2"].map fun path =>
          ⟨resourceUrl "http://swapi" path, some (.structured "\x7b\x7d")⟩) = true := by
    decide +kernel
  have hfault : ∀ a ∈ twoRequests, faultless a = true := by decide
  obtain ⟨tr, s, hrun, htr, hp⟩ := exists_run_of_exec _ hexec
  obtain ⟨hpool, hgets⟩ := of_decide_eq_true hp
  have hrequests : requestsIn tr = [(⟨["people/1", "people/2"], none⟩, ⟨2⟩),
      (⟨["people/3"], none⟩, ⟨4⟩)] := requestsIn_of_map htr
  have hunshared : Unshared (requestsIn tr) := by
    rw [hrequests]
    exact ⟨by decide, by decide⟩
  have hstorable : ∀ r ∈ requestsIn tr, r.1.Storable := by
    rw [hrequests]
    unfold CreateQueryRequestDto.Storable
    decide
  have harrive : BodiesArrive ⟨3, "http://swapi", some⟩ s.store.gets := by
    intro g hg body hbody
    rw [hgets] at hg
    obtain ⟨path, -, rfl⟩ := List.mem_map.mp hg
    obtain rfl := Option.some.inj hbody
    exact ⟨_, rfl, rfl⟩
  rw [← htr, List.forall_mem_map] at hfault
  obtain ⟨hserved, -⟩ := served_if_unshared hrun hfault hunshared hstorable harrive hpool
  rw [hrequests] at hserved
  exact ⟨s, by rw [hgets]; decide, hserved _ List.mem_cons_self, hserved _ (by simp)⟩

end SwapiService
