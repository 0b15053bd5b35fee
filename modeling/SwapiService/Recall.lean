import SwapiService.ApiGateway
import SwapiService.Lib.History

/-!
# What handlers have read

The handler of a result loads its query and asks the cache for every path, and works
with what it got, while the database and the cache go on changing.  This module relates
what a handler holds to the reactions in which it was read: the status of the query is
the one it had when the handler loaded it, and the results are the replies of the cache.
The rows of a query with a row never change but for their results, so there is one
entry for each of them throughout.

## Main definitions

* `CoversRows` — a list of DTOs with one entry for each row of a query.
* `loadedStatuses`, `cacheReplies` — what the handler of a row has read so far.
* `Task.Recalls`, `handlerHistory` — what a task recalls, as assertions about the past.

## Main results

* `CoversRows.react` — the rows of a query stay the same once it has one.
* `recalls` — what every handler holds is what it has read.
-/

namespace SwapiService

open TaskPool Transition

/-! ### One entry for each row -/

/-- One DTO for each stored subquery of the query, with its path and the query's id. -/
structure CoversRows (db : Database) (queryId : Uuid) (ds : List SubqueryDto) : Prop where
  nodup : (ds.map SubqueryDto.id).Nodup
  refers : ∀ d ∈ ds, Refers db d ∧ d.queryId = queryId
  covers : ∀ id row, db.subqueries.lookup id = some row → row.queryId = queryId →
    id ∈ ds.map SubqueryDto.id

/-- Only ids, paths and query ids matter. -/
theorem CoversRows.congr {db : Database} {queryId : Uuid} {ds ds' : List SubqueryDto}
    (h : CoversRows db queryId ds) (hids : ds'.map SubqueryDto.id = ds.map SubqueryDto.id)
    (hsame : ∀ d' ∈ ds', ∃ d ∈ ds, d'.id = d.id ∧ d'.path = d.path ∧ d'.queryId = d.queryId) :
    CoversRows db queryId ds' where
  nodup := hids ▸ h.nodup
  refers d' hd' := by
    obtain ⟨d, hd, hid, hpath, hq⟩ := hsame d' hd'
    obtain ⟨href, hdq⟩ := h.refers d hd
    unfold Refers
    rw [hid, hpath, hq]
    exact ⟨href, hdq⟩
  covers id row hrow hrq := hids ▸ h.covers id row hrow hrq

/-- The reads of a handler cover the rows of the query it has loaded. -/
theorem coversRows_startReads {db : Database} {queryId : Uuid} {query : QueryEntity}
    (h : db.findQuery queryId = some query) :
    CoversRows db queryId ((startReads query).map CacheRead.request) := by
  obtain ⟨qrow, hqrow, rfl⟩ := Database.findQuery_eq_some.mp h
  have hmem : queryId ∈ db.queries := Database.mem_of_lookup hqrow
  refine ⟨?_, ?_, ?_⟩
  · rw [startReads, List.map_map, List.map_map]
    exact db.nodup_subqueriesOf queryId
  · intro d hd
    rw [startReads, List.map_map, List.mem_map] at hd
    obtain ⟨e, he, rfl⟩ := hd
    obtain ⟨row, hrow, hrq, hentity⟩ := Database.mem_subqueriesOf.mp he
    exact ⟨⟨row, hrow, by rw [hentity]; rfl, hrq, hmem⟩, rfl⟩
  · intro id row hrow hrq
    have hload : Database.toEntity id row ∈ db.subqueriesOf queryId :=
      Database.mem_subqueriesOf.mpr ⟨row, hrow, hrq, rfl⟩
    rw [startReads, List.map_map, List.map_map]
    exact List.mem_map.mpr ⟨_, hload, rfl⟩

/-- A row after a reaction was there before, or its query had no row before. -/
theorem Reacts.row_before {cfg : Settings} {s s' : Store} {t : Task} {c : Choice} {ts : List Task}
    (hok : t.Asserts s.db) (hnd : t.owned.Nodup) (h : Reacts cfg s t c s' ts) {id : Uuid}
    {row' : SubqueryRow} (hrow' : s'.db.subqueries.lookup id = some row') :
    (∃ row, s.db.subqueries.lookup id = some row ∧ row.queryId = row'.queryId) ∨
      ∀ i row, s.db.subqueries.lookup i = some row → row.queryId ≠ row'.queryId := by
  by_cases hcreation : ∃ u, t = .creation u
  · obtain ⟨u, rfl⟩ := hcreation
    obtain ⟨e, hfires, rfl, -⟩ := h.of_creation
    obtain ⟨query, phase⟩ := u
    cases hfires with
    | savedSubqueries db' hsave =>
      obtain ⟨-, hother, hrows⟩ := Creation.Ok.saved hok hnd hsave
      by_cases hid : id ∈ query.subqueries.map SubqueryEntity.id
      · -- A new row belongs to the new query.
        obtain ⟨q, hq, rfl⟩ := List.mem_map.mp hid
        have hnew : some _ = some row' := (hrows q hq).symm.trans hrow'
        obtain rfl := Option.some.inj hnew
        exact .inr (Creation.Ok.childless hok)
      · exact .inl ⟨row', (hother id hid).symm.trans hrow', rfl⟩
    | _ => exact .inl ⟨row', hrow', rfl⟩
  · by_cases hhandler : ∃ u, t = .handler u
    · obtain ⟨u, rfl⟩ := hhandler
      obtain ⟨e, hfires, rfl, -⟩ := h.of_handler
      have hchanges := Handler.changesOnly_of_fires hok.2 hfires
      obtain ⟨⟨row, hrow, -⟩, -⟩ := hok
      by_cases hid : id = u.dto.id
      · subst hid
        obtain ⟨result, hresult⟩ := hchanges.row row hrow
        have hnew : some _ = some row' := hresult.symm.trans hrow'
        obtain rfl := Option.some.inj hnew
        exact .inl ⟨row, hrow, rfl⟩
      · exact .inl ⟨row', (hchanges.otherRows id hid).symm.trans hrow', rfl⟩
    · rw [h.db_eq (fun u hu => hcreation ⟨u, hu⟩) fun u hu => hhandler ⟨u, hu⟩] at hrow'
      exact .inl ⟨row', hrow', rfl⟩

/-- **The rows of a query stay the same** once it has one. -/
theorem CoversRows.react {cfg : Settings} {s s' : Store} {t : Task} {c : Choice} {ts : List Task}
    (hok : t.Asserts s.db) (hnd : t.owned.Nodup) (h : Reacts cfg s t c s' ts)
    {dto : SubqueryDto} (href : Refers s.db dto) {ds : List SubqueryDto}
    (hcovers : CoversRows s.db dto.queryId ds) : CoversRows s'.db dto.queryId ds where
  nodup := hcovers.nodup
  refers d hd := by
    obtain ⟨hd, hq⟩ := hcovers.refers d hd
    exact ⟨hd.frame (h.frame hok hnd), hq⟩
  covers id row' hrow' hrq := by
    obtain ⟨own, hown, -, hownq, -⟩ := href
    rcases h.row_before hok hnd hrow' with ⟨row, hrow, hsame⟩ | hnone
    · exact hcovers.covers id row hrow (hsame.trans hrq)
    · exact absurd (hownq.trans hrq.symm) (hnone _ own hown)

/-! ### What a handler has read -/

section Recall

variable {h : List (Reaction Store Task Choice)} {id : Uuid}

/-- The status with which a reaction of the handler of the row `id` loads its query. -/
def loadedStatus? (id : Uuid) (r : Reaction Store Task Choice) : Option Status :=
  match r.task, r.choice with
  | .handler ⟨dto, .findQuery _⟩, .proceed =>
      if dto.id = id then (r.store.db.findQuery dto.queryId).map QueryEntity.status else none
  | _, _ => none

/-- The reply a reaction of that handler gets from the cache. -/
def cacheReply? (id : Uuid) (r : Reaction Store Task Choice) : Option SubqueryDto :=
  match r.task, r.choice with
  | .handler ⟨dto, .readCache _ _ reads⟩, .read j =>
      if dto.id = id then reads[j]?.map fun q => readCacheAsync r.store.cache q.request else none
  | _, _ => none

/-- The statuses with which handlers of the row `id` have loaded their query. -/
def loadedStatuses (h : List (Reaction Store Task Choice)) (id : Uuid) : List Status :=
  h.filterMap (loadedStatus? id)

/-- The replies they have got from the cache. -/
def cacheReplies (h : List (Reaction Store Task Choice)) (id : Uuid) : List SubqueryDto :=
  h.filterMap (cacheReply? id)

theorem loadedStatuses_snoc (r : Reaction Store Task Choice) :
    loadedStatuses (h ++ [r]) id = loadedStatuses h id ++ (loadedStatus? id r).toList := by
  rw [loadedStatuses, List.filterMap_append]
  cases hr : loadedStatus? id r <;> simp [loadedStatuses, hr]

theorem cacheReplies_snoc (r : Reaction Store Task Choice) :
    cacheReplies (h ++ [r]) id = cacheReplies h id ++ (cacheReply? id r).toList := by
  rw [cacheReplies, List.filterMap_append]
  cases hr : cacheReply? id r <;> simp [cacheReplies, hr]

/-- A reaction of another task is not recorded. -/
theorem not_recorded {r : Reaction Store Task Choice}
    (hr : ∀ u, r.task = .handler u → u.dto.id ≠ id) :
    loadedStatus? id r = none ∧ cacheReply? id r = none := by
  obtain ⟨store, task, choice⟩ := r
  cases task with
  | handler u =>
    have hid : u.dto.id ≠ id := hr u rfl
    obtain ⟨dto, phase⟩ := u
    cases phase <;> cases choice <;> simp [loadedStatus?, cacheReply?, hid]
  | _ => simp [loadedStatus?, cacheReply?]

theorem snoc_of_not_recorded {r : Reaction Store Task Choice}
    (hr : loadedStatus? id r = none ∧ cacheReply? id r = none) :
    loadedStatuses (h ++ [r]) id = loadedStatuses h id ∧
      cacheReplies (h ++ [r]) id = cacheReplies h id := by
  rw [loadedStatuses_snoc, cacheReplies_snoc, hr.1, hr.2]
  exact ⟨List.append_nil _, List.append_nil _⟩

/-- No handler of the row has read anything yet. -/
def NothingRead (h : List (Reaction Store Task Choice)) (id : Uuid) : Prop :=
  loadedStatuses h id = [] ∧ cacheReplies h id = []

/-- What a handler holds is what it has read: the status its query had, and the replies
of the cache, for all rows of the query. -/
def HandlerPhase.Recalls (h : List (Reaction Store Task Choice)) (db : Database)
    (dto : SubqueryDto) : HandlerPhase → Prop
  | .findSubquery => NothingRead h dto.id
  | .findQuery _ => NothingRead h dto.id
  | .readCache _ query reads =>
      loadedStatuses h dto.id = [query.status] ∧
        (cacheReplies h dto.id).Perm (reads.filterMap CacheRead.reply) ∧
        CoversRows db dto.queryId (reads.map CacheRead.request)
  | .saveQuery _ query cached =>
      loadedStatuses h dto.id = [query.status] ∧ (cacheReplies h dto.id).Perm cached ∧
        CoversRows db dto.queryId cached
  | .saveSubquery _ updated latest => ∃ query cached, updated = updatedQuery dto query cached ∧
      latest = latestResponse dto query cached ∧ loadedStatuses h dto.id = [query.status] ∧
        (cacheReplies h dto.id).Perm cached ∧ CoversRows db dto.queryId cached

/-- What a task recalls: before a row has its handler, nothing was read for it. -/
def Task.Recalls (h : List (Reaction Store Task Choice)) (s : Store) : Task → Prop
  | .handler t => t.phase.Recalls h s.db t.dto
  | t => ∀ id ∈ t.owned, NothingRead h id

/-- Nothing was read for a row that no reaction was about. -/
theorem nothingRead_of_not_owned (hid : ∀ r ∈ h, id ∉ r.task.owned) : NothingRead h id := by
  have hnone : ∀ r ∈ h, loadedStatus? id r = none ∧ cacheReply? id r = none := by
    intro r hr
    apply not_recorded
    rintro u hu rfl
    apply hid r hr
    rw [hu]
    exact List.mem_cons_self
  exact ⟨List.filterMap_eq_nil_iff.mpr fun r hr => (hnone r hr).1,
    List.filterMap_eq_nil_iff.mpr fun r hr => (hnone r hr).2⟩

/-- The task is not a handler under way. -/
def Task.NotUnderWay : Task → Prop
  | .handler t => t.phase = .findSubquery
  | _ => True

/-- Such a task recalls that nothing was read. -/
theorem Task.recalls_of_nothingRead {s : Store} {t : Task} (ht : t.NotUnderWay)
    (hnothing : ∀ id ∈ t.owned, NothingRead h id) : t.Recalls h s := by
  cases t with
  | handler u =>
    obtain ⟨dto, phase⟩ := u
    obtain rfl : phase = .findSubquery := ht
    exact hnothing dto.id List.mem_cons_self
  | _ => exact hnothing

/-- What a handler recalls survives steps that neither concern its row nor change the
rows of its query. -/
theorem HandlerPhase.Recalls.mono {h' : List (Reaction Store Task Choice)} {db db' : Database}
    {dto : SubqueryDto} {phase : HandlerPhase}
    (hsame : loadedStatuses h' dto.id = loadedStatuses h dto.id ∧
      cacheReplies h' dto.id = cacheReplies h dto.id)
    (hdb : ∀ ds, CoversRows db dto.queryId ds → CoversRows db' dto.queryId ds)
    (hrecalls : phase.Recalls h db dto) : phase.Recalls h' db' dto := by
  obtain ⟨hloaded, hreplies⟩ := hsame
  cases phase with
  | findSubquery => exact ⟨hloaded.trans hrecalls.1, hreplies.trans hrecalls.2⟩
  | findQuery subquery => exact ⟨hloaded.trans hrecalls.1, hreplies.trans hrecalls.2⟩
  | readCache subquery query reads =>
    obtain ⟨hstatus, hperm, hcovers⟩ := hrecalls
    exact ⟨hloaded.trans hstatus, hreplies ▸ hperm, hdb _ hcovers⟩
  | saveQuery subquery query cached =>
    obtain ⟨hstatus, hperm, hcovers⟩ := hrecalls
    exact ⟨hloaded.trans hstatus, hreplies ▸ hperm, hdb _ hcovers⟩
  | saveSubquery subquery updated latest =>
    obtain ⟨query, cached, hupdated, hlatest, hstatus, hperm, hcovers⟩ := hrecalls
    exact ⟨query, cached, hupdated, hlatest, hloaded.trans hstatus, hreplies ▸ hperm,
      hdb _ hcovers⟩

end Recall

/-- An answered read adds its reply. -/
theorem replies_answerRead {cache : ResourceCollection} {reads reads' : List CacheRead} {j : ℕ}
    (h : answerRead cache reads j = some reads') :
    ∃ r, reads[j]? = some r ∧ (reads.filterMap CacheRead.reply ++
      [readCacheAsync cache r.request]).Perm (reads'.filterMap CacheRead.reply) := by
  obtain ⟨r, hr, hreply, rfl⟩ := exists_of_answerRead h
  obtain ⟨hj, hget⟩ := List.getElem?_eq_some_iff.mp hr
  refine ⟨r, hr, ?_⟩
  -- Before and after, the list is split at the read that is answered.
  have hsplit : reads = reads.take j ++ r :: reads.drop (j + 1) := by
    rw [← hget, ← List.drop_eq_getElem_cons hj, List.take_append_drop]
  rw [List.set_eq_take_append_cons_drop, if_pos hj]
  have hbefore : reads.filterMap CacheRead.reply
      = (reads.take j).filterMap CacheRead.reply
        ++ (reads.drop (j + 1)).filterMap CacheRead.reply := by
    conv_lhs => rw [hsplit]
    rw [List.filterMap_append, List.filterMap_cons_none hreply]
  rw [hbefore, List.filterMap_append, List.append_assoc]
  exact (List.perm_append_singleton _ _).append_left _

/-- All replies, once they are there. -/
theorem replies_allReplies {reads : List CacheRead} {cached : List SubqueryDto}
    (h : allReplies reads = some cached) : reads.filterMap CacheRead.reply = cached := by
  rw [allReplies, promiseAll_eq_some] at h
  rw [← Function.id_comp CacheRead.reply, ← List.filterMap_map, h, List.filterMap_map]
  exact List.filterMap_some

/-- **A segment of a handler**: what the next one recalls is what was recalled, and what
this one has read. -/
theorem Handler.recalls_of_fires {h : List (Reaction Store Task Choice)} {s : Store}
    {dto : SubqueryDto} {phase : HandlerPhase} {c : Choice} {e : Effect Handler}
    (hok : (⟨dto, phase⟩ : Handler).Ok s.db) (hrecalls : phase.Recalls h s.db dto)
    (hfires : Fires s.db s.cache dto phase c e) {t : Handler} (ht : e.outcome = .suspended t) :
    t.phase.Recalls (h ++ [⟨s, .handler ⟨dto, phase⟩, c⟩]) s.db dto := by
  -- All segments but the lookup of the query and the cache reads record nothing.
  have hkeep : loadedStatus? dto.id ⟨s, .handler ⟨dto, phase⟩, c⟩ = none ∧
      cacheReply? dto.id ⟨s, .handler ⟨dto, phase⟩, c⟩ = none →
      ∀ {phase' : HandlerPhase}, phase'.Recalls h s.db dto →
        phase'.Recalls (h ++ [⟨s, .handler ⟨dto, phase⟩, c⟩]) s.db dto :=
    fun hnone _ hrecalls => hrecalls.mono (snoc_of_not_recorded hnone) fun _ hds => hds
  cases hfires with
  | rejects => cases ht
  | noSubquery => cases ht
  | noQuery => cases ht
  | unsaved => cases ht
  | savedSubquery => cases ht
  | foundSubquery subquery hfind =>
    obtain rfl := Outcome.suspended.inj ht
    have hnothing : (HandlerPhase.findQuery { subquery with result := dto.result }).Recalls h s.db
        dto := hrecalls
    exact hkeep ⟨rfl, rfl⟩ hnothing
  | foundQuery subquery query hfind =>
    obtain rfl := Outcome.suspended.inj ht
    obtain ⟨hloaded, hreplies⟩ := hrecalls
    refine ⟨?_, ?_, coversRows_startReads hfind⟩
    · rw [loadedStatuses_snoc, hloaded]
      simp [loadedStatus?, hfind]
    · rw [cacheReplies_snoc, hreplies]
      simp [cacheReply?, startReads]
  | reads subquery query reads reads' j hread =>
    obtain rfl := Outcome.suspended.inj ht
    obtain ⟨hloaded, hperm, hcovers⟩ := hrecalls
    obtain ⟨r, hr, hreply⟩ := replies_answerRead hread
    refine ⟨?_, ?_, ?_⟩
    · rw [loadedStatuses_snoc, hloaded]
      rfl
    · rw [cacheReplies_snoc]
      simp only [cacheReply?, if_true, hr, Option.map_some, Option.toList_some]
      exact (hperm.append_right _).trans hreply
    · rw [(ok_answerRead (truthyOrNull_cached s.cache) hread).1]
      exact hcovers
  | replied subquery query reads cached hall =>
    obtain rfl := Outcome.suspended.inj ht
    obtain ⟨hloaded, hperm, hcovers⟩ := hrecalls
    obtain ⟨-, -, -, -, hreads⟩ := hok
    obtain ⟨hids, hsame⟩ := ok_allReplies hreads hall
    apply hkeep ⟨rfl, rfl⟩
    refine ⟨hloaded, replies_allReplies hall ▸ hperm, hcovers.congr ?_ fun d hd => ?_⟩
    · rw [hids, List.map_map]
      rfl
    · obtain ⟨r, hr, hd, -⟩ := hsame d hd
      refine ⟨r.request, List.mem_map_of_mem hr, ?_⟩
      rw [hd]
      exact ⟨rfl, rfl, rfl⟩
  | savedQuery subquery query cached =>
    obtain rfl := Outcome.suspended.inj ht
    apply hkeep ⟨rfl, rfl⟩
    exact ⟨query, cached, rfl, rfl, hrecalls⟩

/-- A reaction of another task may start a handler, but puts none back. -/
theorem Reacts.notUnderWay {cfg : Settings} {s s' : Store} {t : Task} {c : Choice} {ts : List Task}
    (h : Reacts cfg s t c s' ts) (ht : ∀ v, t ≠ .handler v) : ∀ u ∈ ts, u.NotUnderWay := by
  cases h with
  | creation h => exact Effect.forall_tasks (fun _ _ => trivial) fun _ _ => trivial
  | scheduleFetch payload => exact SubqueryPayload.forall_tasks fun _ => trivial
  | scheduler h => exact h.forall_tasks rfl (fun _ => trivial) trivial trivial trivial
  | processor h => exact h.forall_tasks rfl (fun _ => trivial) trivial trivial trivial
  | usageLogger hfresh h => exact Outcome.forall_tasks fun _ _ => trivial
  | @connector f c effect out h =>
    obtain ⟨dto, phase⟩ := f
    cases h <;> simp [receiveMessages, Task.NotUnderWay]
  | receiveToCacheManager dto => exact Outcome.forall_tasks fun _ _ => trivial
  | updater h => exact Outcome.forall_tasks fun _ _ => trivial
  | handler h => exact absurd rfl (ht _)
  | _ => simp [Task.NotUnderWay]

/-- **What the handlers recall**, as assertions about the past. -/
def handlerHistory (cfg : Settings) : History (discipline cfg) where
  Asserts := Task.Recalls
  react_used := @used_react cfg
  env_used := @used_env cfg
  react_asserts := by
    intro h s t c s' ts _ hok hnd hrecalls hr u hu
    have hreacts := reacts_of_react hr
    by_cases ht : ∃ v, t = .handler v
    · obtain ⟨⟨dto, phase⟩, rfl⟩ := ht
      obtain ⟨e, hfires, rfl, rfl⟩ := hreacts.of_handler
      obtain ⟨haw, hhandler⟩ := hok.2
      revert u
      refine Effect.forall_tasks (by simp [Handler.emitted_of_fires hfires]) fun v hv => ?_
      have hnext := Handler.recalls_of_fires hhandler hrecalls hfires hv
      obtain ⟨hdto, -⟩ := Handler.suspended_of_fires hhandler hfires hv
      show v.phase.Recalls _ e.db v.dto
      rw [hdto]
      exact hnext.mono ⟨rfl, rfl⟩ fun ds hds => hds.react hok.2 hnd hreacts haw.refers
    · have hother : ∀ v, t ≠ .handler v := fun v hv => ht ⟨v, hv⟩
      apply Task.recalls_of_nothingRead (hreacts.notUnderWay hother u hu)
      intro id hid
      have hnothing : NothingRead h id := by
        have hmem : id ∈ t.owned := (hreacts.owned hok.2 hnd).2 (List.mem_flatMap.mpr ⟨u, hu, hid⟩)
        cases t with
        | handler v => exact absurd rfl (hother v)
        | _ => exact hrecalls id hmem
      have hnone : loadedStatus? id ⟨s, t, c⟩ = none ∧ cacheReply? id ⟨s, t, c⟩ = none :=
        not_recorded fun v hv => absurd hv (hother v)
      obtain ⟨hloaded, hreplies⟩ := snoc_of_not_recorded hnone
      exact ⟨hloaded.trans hnothing.1, hreplies.trans hnothing.2⟩
  react_frame := by
    intro h s t c s' ts u _ hok hnd hr hu hdis hrecalls
    have hreacts := reacts_of_react hr
    have hsame : ∀ id ∈ u.owned, loadedStatuses (h ++ [⟨s, t, c⟩]) id = loadedStatuses h id ∧
        cacheReplies (h ++ [⟨s, t, c⟩]) id = cacheReplies h id := by
      intro id hid
      apply snoc_of_not_recorded
      apply not_recorded
      rintro v hv rfl
      have ht : t = .handler v := hv
      subst ht
      exact hdis List.mem_cons_self hid
    cases u with
    | handler v =>
      have href : Refers s.db v.dto := hu.2.2.1
      apply HandlerPhase.Recalls.mono (hsame v.dto.id List.mem_cons_self) _ hrecalls
      intro ds hds
      exact hds.react hok.2 hnd hreacts href
    | _ =>
      intro id hid
      obtain ⟨hloaded, hreplies⟩ := hsame id hid
      exact ⟨hloaded.trans (hrecalls id hid).1, hreplies.trans (hrecalls id hid).2⟩
  env_asserts := by
    intro h s e s' ts hused henv u hu
    obtain ⟨-, hfresh⟩ := (acts_of_environment henv).owned
    apply Task.recalls_of_nothingRead
    · exact (acts_of_environment henv).forall_tasks (fun _ _ _ => trivial) u hu
    · intro id hid
      apply nothingRead_of_not_owned
      intro r hr hmem
      exact hfresh id (List.mem_flatMap.mpr ⟨u, hu, hid⟩) (hused r hr id hmem)
  env_frame := by
    intro h s e s' ts u henv hrecalls
    have hdb := (acts_of_environment henv).db
    cases u with
    | handler v =>
      apply HandlerPhase.Recalls.mono ⟨rfl, rfl⟩ _ hrecalls
      intro ds hds
      rw [hdb]
      exact hds
    | _ => exact hrecalls

/-- **What every handler holds is what it has read**, in every run. -/
theorem recalls {cfg : Settings} {tr : List (Sys × Act Choice EnvAct)} {s : Sys}
    (h : Run (system cfg).step initial tr s) {t : Handler} (ht : .handler t ∈ s.pool) :
    t.phase.Recalls (reactions tr) s.store.db t.dto :=
  (handlerHistory cfg).asserts_of_run h (inv_initial cfg) rfl _ ht

end SwapiService
