import SwapiService.InFlight

/-!
# Where results come from

A result travels through the cache, messages, rows, responses and callback bodies,
matched now by path and now by id.  It never ends up at another path: whatever is
found next to a path, anywhere, goes back to a GET of that path's URL.  But it need not
be what the GET returned: a `RECEIVE` event carries the body, and what a handler gets of
it has been transformed.

The argument does not depend on what "returned by a GET" means.  Over any relations
`F` and `F'` between paths and results, such that a result related by `F` is related by
`F'` once it is transformed, the services keep the property that what an event holds
next to a path is related to it by `F`, and everything else by `F'`; only the connector,
when a GET is answered, adds to the relations.

## Main definitions

* `Fetched` — a GET of the path's URL returned the result.
* `Received` — a GET of the path's URL returned a body that arrives as the result.
* `OrNull` — the result is `null`, or related to the path.
* `Store.Sourced`, `Task.Sourced` — everything held next to a path is related to it.
* `AllSourced` — so is everything the system holds, by these two.

## Main results

* `Creation.sourced_of_fires`, `Handler.sourced_of_fires`, `Reacts.sourced` — what
  one segment keeps.
* `allSourced_step` — what one step keeps.
* `provenance_of_reachable` — every result, wherever it is, was fetched from its
  own path and transformed once.
* `changed_on_its_way` — a result that no GET returned.
-/

namespace SwapiService

open TaskPool Transition

/-! ### GETs -/

/-- Different paths have different URLs. -/
theorem resourceUrl_injective (baseUrl : String) : Function.Injective (resourceUrl baseUrl) := by
  intro path path' h
  have hlist := congrArg String.toList h
  simp only [resourceUrl, String.toList_append] at hlist
  exact String.toList_inj.mp (List.append_cancel_left hlist)

/-- A GET of the URL of `path`, and of no other path, returned `r`. -/
def Fetched (baseUrl : String) (gets : List HttpGet) (path : String) (r : Json) : Prop :=
  ∃ g ∈ gets, g.response = some r ∧ ∀ path', g.url = resourceUrl baseUrl path' ↔ path' = path

theorem fetched_of_mem {baseUrl path : String} {gets : List HttpGet} {r : Json}
    (h : ⟨resourceUrl baseUrl path, some r⟩ ∈ gets) : Fetched baseUrl gets path r :=
  ⟨_, h, rfl, fun _ =>
    ⟨fun heq => (resourceUrl_injective baseUrl heq).symm, fun heq => by rw [heq]⟩⟩

theorem Fetched.mono {baseUrl path : String} {gets gets' : List HttpGet} {r : Json}
    (h : Fetched baseUrl gets path r) (hsub : gets ⊆ gets') : Fetched baseUrl gets' path r := by
  obtain ⟨g, hg, hr⟩ := h
  exact ⟨g, hsub hg, hr⟩

/-- A GET of the URL of `path`, and of no other path, returned a body that arrives at the
handlers as `r`. -/
def Received (cfg : Settings) (gets : List HttpGet) (path : String) (r : Json) : Prop :=
  ∃ body, Fetched cfg.swapiBaseUrl gets path body ∧ cfg.transform body = some r

theorem Received.mono {cfg : Settings} {path : String} {gets gets' : List HttpGet} {r : Json}
    (h : Received cfg gets path r) (hsub : gets ⊆ gets') : Received cfg gets' path r := by
  obtain ⟨body, hbody, hr⟩ := h
  exact ⟨body, hbody.mono hsub, hr⟩

/-- The result is `null`, or related to the path. -/
def OrNull (F : String → Json → Prop) (path : String) (r : Json) : Prop := r ≠ .null → F path r

section Sourced

variable {F : String → Json → Prop}

/-- Everything the stores hold next to a path is related to it. -/
structure Store.Sourced (F : String → Json → Prop) (s : Store) : Prop where
  cache : ∀ path doc, s.cache.docs.lookup path = some doc → F path doc.cachedResult
  row : ∀ id row, s.db.subqueries.lookup id = some row → OrNull F row.path row.result
  created : ∀ r ∈ s.created, ∀ d ∈ r.subqueries, OrNull F d.path d.result
  polled : ∀ r ∈ s.polled, ∀ d ∈ r.subqueries, OrNull F d.path d.result
  posts : ∀ p ∈ s.posts, ∀ d ∈ p.body.subqueries, OrNull F d.path d.result

/-- Everything a creation holds next to a path is related to it. -/
def Creation.Sourced (F : String → Json → Prop) (t : Creation) : Prop :=
  (∀ e ∈ t.query.subqueries, OrNull F e.path e.result) ∧
    ∀ reads, t.phase = .readCache reads → ∀ r ∈ reads, r.Ok (OrNull F)

/-- Everything a handler holds next to a path is related to it. -/
def Handler.Sourced (F : String → Json → Prop) (t : Handler) : Prop :=
  F t.dto.path t.dto.result ∧
    match t.phase with
    | .findSubquery => True
    | .findQuery _ => True
    | .readCache _ _ reads => ∀ r ∈ reads, r.Ok (OrNull F)
    | .saveQuery _ _ cached => ∀ d ∈ cached, OrNull F d.path d.result
    | .saveSubquery _ _ latestResponse =>
        ∀ d ∈ latestResponse.subqueries, OrNull F d.path d.result

/-- Everything a task holds next to a path is related to it, by `F` before it is
transformed and by `F'` after that. -/
def Task.Sourced (F F' : String → Json → Prop) : Task → Prop
  | .creation t => t.Sourced F'
  | .receiveToQueryManager dto => F dto.path dto.result
  | .receiveToCacheManager dto => F dto.path dto.result
  | .handler t => t.Sourced F'
  | .updater u => F' u.dto.path u.dto.result
  | _ => True

/-- Everything a segment of the query manager writes or sends is related to its
path. -/
structure Effect.Sourced {α : Type} (F : String → Json → Prop) (e : Effect α) : Prop where
  row : ∀ id row, e.db.subqueries.lookup id = some row → OrNull F row.path row.result
  responses : ∀ r ∈ e.responses, ∀ d ∈ r.subqueries, OrNull F d.path d.result
  posts : ∀ p ∈ e.posts, ∀ d ∈ p.body.subqueries, OrNull F d.path d.result

/-! ### A larger relation -/

section Mono

variable {F' : String → Json → Prop} (hF : ∀ path r, F path r → F' path r)

include hF

theorem OrNull.mono {path : String} {r : Json} (h : OrNull F path r) : OrNull F' path r :=
  fun hr => hF path r (h hr)

theorem CacheRead.Ok.mono {r : CacheRead} (h : r.Ok (OrNull F)) : r.Ok (OrNull F') := by
  intro d hd
  obtain ⟨heq, hv⟩ := h d hd
  exact ⟨heq, hv.mono hF⟩

theorem Store.Sourced.mono {s : Store} (h : s.Sourced F) : s.Sourced F' where
  cache path doc hdoc := hF _ _ (h.cache path doc hdoc)
  row id row hrow := (h.row id row hrow).mono hF
  created r hr d hd := (h.created r hr d hd).mono hF
  polled r hr d hd := (h.polled r hr d hd).mono hF
  posts p hp d hd := (h.posts p hp d hd).mono hF

theorem Task.Sourced.mono {G G' : String → Json → Prop} (hG : ∀ path r, G path r → G' path r)
    {t : Task} (h : t.Sourced G F) : t.Sourced G' F' := by
  cases t with
  | creation t =>
    obtain ⟨hsub, hreads⟩ := h
    exact ⟨fun e he => (hsub e he).mono hF, fun reads hp r hr => (hreads reads hp r hr).mono hF⟩
  | receiveToQueryManager dto => exact hG _ _ h
  | receiveToCacheManager dto => exact hG _ _ h
  | updater u => exact hF _ _ h
  | handler t =>
    obtain ⟨dto, phase⟩ := t
    obtain ⟨hdto, hphase⟩ := h
    refine ⟨hF _ _ hdto, ?_⟩
    cases phase with
    | findSubquery => trivial
    | findQuery subquery => trivial
    | readCache subquery query reads => exact fun r hr => (hphase r hr).mono hF
    | saveQuery subquery query cached => exact fun d hd => (hphase d hd).mono hF
    | saveSubquery subquery updated latest => exact fun d hd => (hphase d hd).mono hF
  | _ => trivial

end Mono

/-! ### One segment -/

/-- What the cache replies is related to its path. -/
theorem Store.Sourced.cached {s : Store} (h : s.Sourced F) (path : String) :
    OrNull F path (s.cache.cached path) := by
  intro hne
  unfold ResourceCollection.cached ResourceCollection.findOne at hne ⊢
  cases hdoc : s.cache.docs.lookup path with
  | none => simp [hdoc] at hne
  | some doc =>
    simp only [hdoc, Option.map_some] at hne ⊢
    rw [Json.orNull_eq_self hne]
    exact h.cache path doc hdoc

section Segments

variable {db : Database} {cache : ResourceCollection} {c : Choice}
  (hcache : ∀ path, OrNull F path (cache.cached path))
  (hdb : ∀ id row, db.subqueries.lookup id = some row → OrNull F row.path row.result)

include hcache hdb

/-- **A segment of a creation keeps results with their paths.** -/
theorem Creation.sourced_of_fires {query : QueryEntity} {phase : CreationPhase}
    {e : Effect Creation} (hok : (⟨query, phase⟩ : Creation).Ok db)
    (hnd : (⟨query, phase⟩ : Creation).owned.Nodup) (ht : (⟨query, phase⟩ : Creation).Sourced F)
    (h : Fires db cache query phase c e) :
    e.Sourced F ∧ ∀ t, e.outcome = .suspended t → t.Sourced F := by
  obtain ⟨hsub, hreads⟩ := ht
  cases h with
  | rejects => exact ⟨⟨hdb, by simp, by simp⟩, fun t ht => nomatch ht⟩
  | refusedQuery => exact ⟨⟨hdb, by simp, by simp⟩, fun t ht => nomatch ht⟩
  | unsaved => exact ⟨⟨hdb, by simp, by simp⟩, fun t ht => nomatch ht⟩
  | reads reads reads' j hans =>
    refine ⟨⟨hdb, by simp, by simp⟩, fun t ht => ?_⟩
    obtain rfl := Outcome.suspended.inj ht
    refine ⟨hsub, fun rs hrs => ?_⟩
    obtain rfl := CreationPhase.readCache.inj hrs
    exact (ok_answerRead hcache hans).2 (hreads reads rfl)
  | hit reads newSubqueries hall htruthy =>
    refine ⟨⟨hdb, fun r hr d hd => ?_, by simp⟩, fun t ht => nomatch ht⟩
    obtain rfl := List.mem_singleton.mp hr
    obtain ⟨-, -, -, hv⟩ := (ok_allReplies (hreads reads rfl) hall).2 d hd
    exact hv
  | miss reads newSubqueries hall hmiss =>
    refine ⟨⟨hdb, by simp, by simp⟩, fun t ht => ?_⟩
    obtain rfl := Outcome.suspended.inj ht
    refine ⟨fun q hq => ?_, (fun rs hrs => nomatch hrs)⟩
    obtain ⟨d, hd, rfl⟩ := List.mem_map.mp hq
    obtain ⟨-, -, -, hv⟩ := (ok_allReplies (hreads reads rfl) hall).2 d hd
    exact hv
  | savedQuery =>
    refine ⟨⟨hdb, by simp, by simp⟩, fun t ht => ?_⟩
    obtain rfl := Outcome.suspended.inj ht
    exact ⟨hsub, (fun rs hrs => nomatch hrs)⟩
  | savedSubqueries db' hsave =>
    obtain ⟨-, hother, hrows⟩ := hok.saved hnd hsave
    refine ⟨⟨fun id row hrow => ?_, fun r hr d hd => ?_, by simp⟩, fun t ht => nomatch ht⟩
    · -- A new row has the result the cache replied for its path.
      by_cases hid : id ∈ query.subqueries.map SubqueryEntity.id
      · obtain ⟨q, hq, rfl⟩ := List.mem_map.mp hid
        rw [hrows q hq] at hrow
        obtain rfl := Option.some.inj hrow
        exact hsub q hq
      · exact hdb id row (by rw [← hother id hid]; exact hrow)
    · obtain rfl := List.mem_singleton.mp hr
      obtain ⟨q, hq, rfl⟩ := List.mem_map.mp hd
      exact hsub q hq

/-- **A segment of a handler keeps results with their paths.** -/
theorem Handler.sourced_of_fires {dto : SubqueryDto} {phase : HandlerPhase} {e : Effect Handler}
    (hok : (⟨dto, phase⟩ : Handler).Ok db) (ht : (⟨dto, phase⟩ : Handler).Sourced F)
    (h : Fires db cache dto phase c e) :
    e.Sourced F ∧ ∀ t, e.outcome = .suspended t → t.Sourced F := by
  obtain ⟨hdto, hphase⟩ := ht
  have hself : OrNull F dto.path dto.result := fun _ => hdto
  cases h with
  | rejects => exact ⟨⟨hdb, by simp, by simp⟩, fun t ht => nomatch ht⟩
  | noSubquery => exact ⟨⟨hdb, by simp, by simp⟩, fun t ht => nomatch ht⟩
  | noQuery => exact ⟨⟨hdb, by simp, by simp⟩, fun t ht => nomatch ht⟩
  | unsaved => exact ⟨⟨hdb, by simp, by simp⟩, fun t ht => nomatch ht⟩
  | foundSubquery =>
    refine ⟨⟨hdb, by simp, by simp⟩, fun t ht => ?_⟩
    obtain rfl := Outcome.suspended.inj ht
    exact ⟨hdto, trivial⟩
  | foundQuery subquery query =>
    refine ⟨⟨hdb, by simp, by simp⟩, fun t ht => ?_⟩
    obtain rfl := Outcome.suspended.inj ht
    exact ⟨hdto, ok_startReads _ query⟩
  | reads subquery query reads reads' j hans =>
    refine ⟨⟨hdb, by simp, by simp⟩, fun t ht => ?_⟩
    obtain rfl := Outcome.suspended.inj ht
    exact ⟨hdto, (ok_answerRead hcache hans).2 hphase⟩
  | replied subquery query reads cached hall =>
    refine ⟨⟨hdb, by simp, by simp⟩, fun t ht => ?_⟩
    obtain rfl := Outcome.suspended.inj ht
    refine ⟨hdto, fun d hd => ?_⟩
    obtain ⟨-, -, -, hv⟩ := (ok_allReplies hphase hall).2 d hd
    exact hv
  | savedQuery subquery query cached =>
    refine ⟨⟨hdb, by simp, by simp⟩, fun t ht => ?_⟩
    obtain rfl := Outcome.suspended.inj ht
    refine ⟨hdto, fun d hd => ?_⟩
    -- Each subquery of the response is a cached reply, or the event itself.
    obtain ⟨q, hq, rfl⟩ := List.mem_map.mp hd
    by_cases hid : q.id = dto.id
    · rw [if_pos hid]
      exact hself
    · rw [if_neg hid]
      exact hphase q hq
  | savedSubquery subquery updated latest db' hsave =>
    obtain ⟨-, hother, hown⟩ := hok.saved hsave
    refine ⟨⟨fun id row' hrow' => ?_, by simp, fun p hp d hd => ?_⟩, fun t ht => nomatch ht⟩
    · by_cases hid : id = dto.id
      · -- The row has the path of the event.
        subst hid
        obtain rfl := Option.some.inj (hown.symm.trans hrow')
        exact hself
      · exact hdb id row' ((hother id hid).symm.trans hrow')
    · rw [body_of_mem_notifications hp] at hd
      exact hphase d hd

end Segments

/-- What a segment of the query manager leaves in the store. -/
theorem Effect.Sourced.store {α : Type} {e : Effect α} (h : e.Sourced F) {s : Store}
    (hs : s.Sourced F) : (e.store s).Sourced F where
  cache := hs.cache
  row := h.row
  created r hr := by
    rcases List.mem_append.mp hr with hr | hr
    · exact hs.created r hr
    · exact h.responses r hr
  polled := hs.polled
  posts p hp := by
    rcases List.mem_append.mp hp with hp | hp
    · exact hs.posts p hp
    · exact h.posts p hp

end Sourced

/-! ### Whole runs -/

section Runs

variable {cfg : Settings}

/-- What the tasks that write results assert, whoever owns the rows. -/
def Task.WritesOk (db : Database) : Task → Prop
  | .creation t => t.Ok db ∧ t.owned.Nodup
  | .handler t => t.Ok db
  | .updater u => u.Ok
  | _ => True

theorem Task.Asserts.writesOk {db : Database} {t : Task} (h : t.Asserts db)
    (hnd : t.owned.Nodup) : t.WritesOk db := by
  cases t with
  | creation t => exact ⟨h, hnd⟩
  | handler t => exact h.2
  | updater u => exact h
  | _ => trivial

/-- **A reaction keeps results with their paths.** -/
theorem Reacts.sourced {s s' : Store} {t : Task} {c : Choice} {ts : List Task}
    (hok : t.WritesOk s.db) (h : Reacts cfg s t c s' ts) (hs : s.Sourced (Received cfg s.gets))
    (ht : t.Sourced (Fetched cfg.swapiBaseUrl s.gets) (Received cfg s.gets)) :
    s.gets ⊆ s'.gets ∧ s'.Sourced (Received cfg s'.gets) ∧
      ∀ u ∈ ts, u.Sourced (Fetched cfg.swapiBaseUrl s'.gets) (Received cfg s'.gets) := by
  have hrefl : s.gets ⊆ s.gets := fun _ hg => hg
  cases h with
  | creation h =>
    obtain ⟨he, htasks⟩ := Creation.sourced_of_fires hs.cached hs.row hok.1 hok.2 ht h
    exact ⟨hrefl, he.store hs, Effect.forall_tasks (fun _ _ => trivial) htasks⟩
  | handler h =>
    obtain ⟨he, htasks⟩ := Handler.sourced_of_fires hs.cached hs.row hok ht h
    exact ⟨hrefl, he.store hs, Effect.forall_tasks (fun _ _ => trivial) htasks⟩
  | scheduleFetch payload =>
    exact ⟨hrefl, hs, SubqueryPayload.forall_tasks fun _ => trivial⟩
  | scheduler h =>
    exact ⟨hrefl, hs, h.forall_tasks rfl (fun _ => trivial) trivial trivial trivial⟩
  | processor h =>
    exact ⟨hrefl, hs, h.forall_tasks rfl (fun _ => trivial) trivial trivial trivial⟩
  | job j hdue => exact ⟨hrefl, hs, by simp [Task.Sourced]⟩
  | fetchToConnector dto => exact ⟨hrefl, hs, by simp [Task.Sourced]⟩
  | fetchToTraffic dto => exact ⟨hrefl, hs, by simp [Task.Sourced]⟩
  | usageLogger hfresh h =>
    exact ⟨hrefl, ⟨hs.cache, hs.row, hs.created, hs.polled, hs.posts⟩,
      Outcome.forall_tasks fun _ _ => trivial⟩
  | @connector f c effect out h =>
    have hsub : s.gets ⊆ s.gets ++ effect.gets := List.subset_append_left _ _
    have hmono : s.Sourced (Received cfg (s.gets ++ effect.gets)) :=
      hs.mono fun _ _ hr => hr.mono hsub
    refine ⟨hsub, ⟨hmono.cache, hmono.row, hmono.created, hmono.polled, hmono.posts⟩, ?_⟩
    obtain ⟨dto, phase⟩ := f
    cases h with
    | fetched data =>
      -- The body that is published is the one the GET has just returned.
      have hget : Fetched cfg.swapiBaseUrl
          (s.gets ++ [⟨resourceUrl cfg.swapiBaseUrl dto.path, some data⟩]) dto.path data :=
        fetched_of_mem (List.mem_append_right _ List.mem_cons_self)
      simpa [receiveMessages, Task.Sourced] using hget
    | _ => simp [Task.Sourced]
  | receiveToQueryManager dto result hpipe =>
    refine ⟨hrefl, hs, fun u hu => ?_⟩
    obtain rfl := List.mem_singleton.mp hu
    exact ⟨⟨dto.result, ht, hpipe⟩, trivial⟩
  | receiveToCacheManager dto result hpipe =>
    refine ⟨hrefl, hs, Outcome.forall_tasks fun u hup => ?_⟩
    have hdto : u.dto = { dto with result } := (CacheUpdate.ok_updateCache hup).2
    show Received _ _ u.dto.path u.dto.result
    rw [hdto]
    exact ⟨dto.result, ht, hpipe⟩
  | refusedToQueryManager => exact ⟨hrefl, hs, by simp⟩
  | refusedToCacheManager => exact ⟨hrefl, hs, by simp⟩
  | @updater u c cache out h =>
    refine ⟨hrefl, ⟨fun path doc hdoc => ?_, hs.row, hs.created, hs.polled, hs.posts⟩,
      Outcome.forall_tasks fun u' hout => ?_⟩
    · -- The document it writes holds its own event's result.
      rcases CacheUpdate.lookup_of_fires hok h path with hsame | ⟨rfl, i, hown⟩
      · exact hs.cache path doc (hsame ▸ hdoc)
      · have hdoc' : cache.docs.lookup u.dto.path = some doc := hdoc
        rw [hown, Option.some.injEq] at hdoc'
        obtain rfl := hdoc'
        exact ht
    · subst hout
      have hdto : u'.dto = u.dto := (CacheUpdate.ok_of_fires hok h).2
      show Received _ _ u'.dto.path u'.dto.result
      rw [hdto]
      exact ht

/-- Nothing outside writes a result, but a poll shows those that are stored. -/
theorem Acts.sourced {s s' : Store} {e : EnvAct} {ts : List Task} (h : Acts s e s' ts)
    {F F' : String → Json → Prop} (hs : s.Sourced F') :
    s'.gets = s.gets ∧ s'.Sourced F' ∧ ∀ u ∈ ts, u.Sourced F F' := by
  cases h with
  | create dto ids queryId =>
    refine ⟨rfl, ⟨hs.cache, hs.row, hs.created, hs.polled, hs.posts⟩, fun u hu => ?_⟩
    obtain rfl := List.mem_singleton.mp hu
    refine ⟨fun q hq hne => absurd (mem_generateQueryEntity hq).2.2 hne, fun reads hreads => ?_⟩
    obtain rfl := CreationPhase.readCache.inj hreads
    exact ok_startReads _ _
  | poll id =>
    refine ⟨rfl, ⟨hs.cache, hs.row, hs.created, fun r hr d hd => ?_, hs.posts⟩, by simp⟩
    rcases List.mem_append.mp hr with hr | hr
    · exact hs.polled r hr d hd
    · obtain rfl := List.mem_singleton.mp hr
      obtain ⟨-, -, hrow⟩ := mem_fetchQueryResultsAsync.mp hd
      exact hs.row _ _ hrow
  | tick ms =>
    exact ⟨rfl, ⟨hs.cache, hs.row, hs.created, hs.polled, hs.posts⟩, by simp⟩
  | removeCacheEntry path =>
    refine ⟨rfl, ⟨fun path' doc hdoc => ?_, hs.row, hs.created, hs.polled, hs.posts⟩, by simp⟩
    by_cases hp : path' = path
    · subst hp
      rw [ResourceCollection.remove, AList.lookup_erase] at hdoc
      cases hdoc
    · rw [ResourceCollection.remove, AList.lookup_erase_ne hp] at hdoc
      exact hs.cache path' doc hdoc

/-- The DTO of a `RECEIVE` event. -/
def Task.received : Task → Option SubqueryDto
  | .receiveToQueryManager dto => some dto
  | .receiveToCacheManager dto => some dto
  | _ => none

/-- What is held next to a path was returned for it, or is what such a body arrives as. -/
def AllSourced (cfg : Settings) (s : Sys) : Prop :=
  s.store.Sourced (Received cfg s.store.gets) ∧
    ∀ t ∈ s.pool, t.Sourced (Fetched cfg.swapiBaseUrl s.store.gets) (Received cfg s.store.gets)

theorem allSourced_initial (cfg : Settings) : AllSourced cfg initial := by
  refine ⟨⟨?_, ?_, ?_, ?_, ?_⟩, ?_⟩ <;>
    simp [initial, Database.empty, ResourceCollection.empty]

/-- **No step breaks this**, and none takes a GET back. -/
theorem allSourced_step {s s' : Sys} {a : Act Choice EnvAct} (h : AllSourced cfg s)
    (hok : ∀ t ∈ s.pool, t.WritesOk s.store.db) (hs : (system cfg).step s a = some s') :
    s.store.gets ⊆ s'.store.gets ∧ AllSourced cfg s' := by
  obtain ⟨hstore, hpool⟩ := h
  rcases system_step_cases hs with ⟨i, c, t, rest, ts, -, hr, hreacts⟩ | ⟨e, ts, -, hacts, hp⟩
  · obtain ⟨hsub, hstore', hts⟩ := hreacts.sourced (hok t hr.mem) hstore (hpool t hr.mem)
    refine ⟨hsub, hstore', fun u hu => ?_⟩
    rcases hr.mem_pool'.mp hu with hu | hu
    · -- The relations grow along the run, so the tasks left alone keep what they have.
      have hbefore := hpool u (hr.mem_of_rest hu)
      exact hbefore.mono (fun _ _ hf => hf.mono hsub) fun _ _ hf => hf.mono hsub
    · exact hts u hu
  · obtain ⟨hgets, hstore', hts⟩ :=
      hacts.sourced (F := Fetched cfg.swapiBaseUrl s.store.gets) hstore
    rw [AllSourced, hgets, hp]
    refine ⟨List.Subset.refl _, hstore', fun u hu => ?_⟩
    rcases List.mem_append.mp hu with hu | hu
    · exact hpool u hu
    · exact hts u hu

theorem writesOk_of_inv {s : Sys} (hI : (discipline cfg).Inv s) {t : Task}
    (ht : t ∈ s.pool) : t.WritesOk s.store.db :=
  (hI.ok t ht).2.writesOk (hI.nodup_owned ht)

/-- What a run has fetched and delivered, and who holds it. -/
theorem sourced_of_run {s : Sys} {tr : List (Sys × Act Choice EnvAct)}
    (h : Run (system cfg).step initial tr s) : AllSourced cfg s := by
  induction h with
  | nil => exact allSourced_initial cfg
  | snoc hrun hs ih =>
    have hI := inv_of_reachable ⟨_, hrun⟩
    exact (allSourced_step ih (fun _ => writesOk_of_inv hI) hs).2

/-- **No cross-talk between paths or queries.**  In every reachable state, what a
`RECEIVE` event holds for a path was returned by a GET of that path's URL, and what a
cache entry, a row, a create response, a poll response or a callback body holds for it is
`null` or what such a body arrives as; the cache entry is never `null` by default. -/
theorem provenance_of_reachable (cfg : Settings) {s : Sys}
    (h : Reachable (system cfg).step initial s) :
    s.store.Sourced (Received cfg s.store.gets) ∧
      ∀ t ∈ s.pool, ∀ dto, t.received = some dto →
        Fetched cfg.swapiBaseUrl s.store.gets dto.path dto.result := by
  obtain ⟨tr, h⟩ := h
  obtain ⟨hstore, hpool⟩ := sourced_of_run h
  refine ⟨hstore, fun t ht dto hdto => ?_⟩
  have htask := hpool t ht
  cases t with
  | receiveToQueryManager d => cases hdto; exact htask
  | receiveToCacheManager d => cases hdto; exact htask
  | _ => cases hdto

/-- The same actions, with another body in the answer. -/
def answering (data : Json) : Act Choice EnvAct → Act Choice EnvAct
  | .run i (.body _) => .run i (.body data)
  | a => a

/-- The text of an object whose only property is a `toString` of its own. -/
def ownToString : Json := .structured "\x7b\"toString\":1\x7d"

/-- The pipe copies no property of that name. -/
def dropsToString (r : Json) : Option Json :=
  some (if r = ownToString then .structured "\x7b\x7d" else r)

theorem provenance_of_reachable_ownToString :
    ∃ s : Sys, s.store.db.subqueries.lookup ⟨0⟩
        = some ⟨"people/1", ⟨1⟩, .structured "\x7b\x7d"⟩ ∧ s.store.posts ≠ [] ∧
      s.store.Sourced (Received ⟨1, "http://swapi", dropsToString⟩ s.store.gets) ∧
      ∀ t ∈ s.pool, ∀ dto, t.received = some dto →
        Fetched "http://swapi" s.store.gets dto.path dto.result := by
  have hexec : (exec (system ⟨1, "http://swapi", dropsToString⟩).step initial
      ((firstResult ++ firstSave).map (answering ownToString))).any (fun s =>
        s.store.db.subqueries.lookup ⟨0⟩ = some ⟨"people/1", ⟨1⟩, .structured "\x7b\x7d"⟩ ∧
          s.store.posts ≠ []) = true := by
    decide +kernel
  obtain ⟨s, hs, hp⟩ := exists_reachable_of_exec _ hexec
  obtain ⟨hrow, hposts⟩ := of_decide_eq_true hp
  exact ⟨s, hrow, hposts, provenance_of_reachable ⟨1, "http://swapi", dropsToString⟩ hs⟩

/-- **A result that no GET returned**: the only GET is answered with an object that has a
`toString` of its own, and what is stored for its path is the empty object. -/
theorem changed_on_its_way :
    ∃ s : Sys, Reachable (system ⟨1, "http://swapi", dropsToString⟩).step initial s ∧
      s.store.gets = [⟨"http://swapi/people/1", some ownToString⟩] ∧
      s.store.db.subqueries.lookup ⟨0⟩
        = some ⟨"people/1", ⟨1⟩, .structured "\x7b\x7d"⟩ ∧
      ¬ s.store.Sourced (Fetched "http://swapi" s.store.gets) := by
  have hexec : (exec (system ⟨1, "http://swapi", dropsToString⟩).step initial
      ((firstResult ++ firstSave).map (answering ownToString))).any (fun s =>
        s.store.gets = [⟨"http://swapi/people/1", some ownToString⟩] ∧
          s.store.db.subqueries.lookup ⟨0⟩
            = some ⟨"people/1", ⟨1⟩, .structured "\x7b\x7d"⟩) = true := by
    decide +kernel
  obtain ⟨s, hs, hp⟩ := exists_reachable_of_exec _ hexec
  obtain ⟨hgets, hrow⟩ := of_decide_eq_true hp
  refine ⟨s, hs, hgets, hrow, fun hsourced => ?_⟩
  obtain ⟨g, hg, hbody, -⟩ := hsourced.row _ _ hrow (by decide)
  rw [hgets, List.mem_singleton] at hg
  subst hg
  exact absurd hbody (by decide)

end Runs

end SwapiService
