import SwapiService.Activations
import SwapiService.System

/-!
# Who works on which row

A creation owns the ids it has drawn.  Once the rows are stored, the id of a row
without a result is handed from the event that schedules it to the activation it
starts, on to the job, the `FETCH` event, the connector, the `RECEIVE` event and
the handler that saves the result.  At any moment at most one of them has it, and
as long as one has, the row is `null`.  This is an ownership discipline for the
system, and it holds in every reachable state.

## Main definitions

* `Task.owned` — the ids a task owns.
* `Task.Asserts` — what a task asserts about the database.
* `Store.Good` — the invariant of the store.
* `discipline` — the ownership discipline.
* `startingWith` — the system before its first request, with some cache.

## Main results

* `inv_of_reachable` — the discipline holds in every reachable state.
* `grows_of_inv` — rows keep their path and query, and a stored result is
  never touched again.
-/

namespace SwapiService

open TaskPool Transition

/-! ### Keys and assertions -/

/-- The ids a task owns.  The traffic controller and the cache manager get copies
of the events that give them no right to the row. -/
def Task.owned : Task → List Uuid
  | .creation t => t.owned
  | .scheduleFetch payload => payload.id.toList
  | .scheduler a => [a.dto.id]
  | .job j => [j.data.id]
  | .processor a => [a.dto.id]
  | .fetchToConnector dto => [dto.id]
  | .fetchToTraffic _ => []
  | .usageLogger _ _ => []
  | .connector f => [f.dto.id]
  | .receiveToQueryManager dto => [dto.id]
  | .receiveToCacheManager _ => []
  | .handler t => [t.dto.id]
  | .updater _ => []

/-- What a task asserts about the database. -/
def Task.Asserts (db : Database) : Task → Prop
  | .creation t => t.Ok db
  | .scheduleFetch payload => ∀ id ∈ payload.id,
      ∃ dto, payload.validate = some dto ∧ dto.id = id ∧ Awaits db dto
  | .scheduler a => Awaits db a.dto
  | .job j => Awaits db j.data
  | .processor a => Awaits db a.dto
  | .fetchToConnector dto => Awaits db dto
  | .fetchToTraffic dto => Refers db dto
  | .usageLogger _ _ => True
  | .connector f => Awaits db f.dto
  | .receiveToQueryManager dto => Awaits db dto
  | .receiveToCacheManager dto => Refers db dto
  | .handler t => Awaits db t.dto ∧ t.Ok db
  | .updater u => u.Ok

/-- The owned ids have been drawn, and the assertion holds. -/
def Task.Ok (s : Store) (t : Task) : Prop := t.owned ⊆ s.drawn ∧ t.Asserts s.db

/-- Rows belong to persisted queries, and every id in the database was drawn. -/
structure Store.Good (s : Store) : Prop where
  foreignKey : ∀ id row, s.db.subqueries.lookup id = some row → row.queryId ∈ s.db.queries
  subqueriesDrawn : ∀ id ∈ s.db.subqueries, id ∈ s.drawn
  queriesDrawn : ∀ id ∈ s.db.queries, id ∈ s.drawn

/-- **Assertions survive steps on other ids.** -/
theorem Task.Asserts.frame {ids : List Uuid} {db db' : Database} {t : Task} (h : t.Asserts db)
    (hf : Database.Frame ids db db') (hdis : ids.Disjoint t.owned) : t.Asserts db' := by
  have hnot : ∀ id ∈ t.owned, id ∉ ids := fun id hid hmem => hdis hmem hid
  cases t with
  | creation t => exact Creation.Ok.frame h hf hdis
  | scheduleFetch payload =>
    intro id hid
    obtain ⟨dto, hval, rfl, haw⟩ := h id hid
    exact ⟨dto, hval, rfl, haw.frame hf (hnot _ (Option.mem_toList.mpr hid))⟩
  | scheduler a => exact Awaits.frame h hf (hnot _ List.mem_cons_self)
  | job j => exact Awaits.frame h hf (hnot _ List.mem_cons_self)
  | processor a => exact Awaits.frame h hf (hnot _ List.mem_cons_self)
  | fetchToConnector dto => exact Awaits.frame h hf (hnot _ List.mem_cons_self)
  | fetchToTraffic dto => exact Refers.frame h hf
  | usageLogger dto u => trivial
  | connector f => exact Awaits.frame h hf (hnot _ List.mem_cons_self)
  | receiveToQueryManager dto => exact Awaits.frame h hf (hnot _ List.mem_cons_self)
  | receiveToCacheManager dto => exact Refers.frame h hf
  | handler t => exact ⟨h.1.frame hf (hnot _ List.mem_cons_self), h.2.frame hf⟩
  | updater u => exact h

/-- **A row whose id is owned is `null`.** -/
theorem Task.Asserts.result_eq_null {db : Database} {t : Task} (h : t.Asserts db) {id : Uuid}
    (hid : id ∈ t.owned) {row : SubqueryRow} (hrow : db.subqueries.lookup id = some row) :
    row.result = .null := by
  have key : ∀ dto : SubqueryDto, Awaits db dto → id ∈ [dto.id] → row.result = .null := by
    rintro dto ⟨row', hrow', -, -, -, hnull⟩ hid
    obtain rfl : id = dto.id := by simpa using hid
    rw [hrow] at hrow'
    obtain rfl := Option.some.inj hrow'
    exact hnull
  cases t with
  | creation t =>
    have hmem : id ∈ db.subqueries := Database.mem_of_lookup hrow
    exact absurd hmem (Creation.Ok.fresh h id hid)
  | scheduleFetch payload =>
    obtain ⟨dto, -, rfl, haw⟩ := h id (Option.mem_toList.mp hid)
    exact key dto haw List.mem_cons_self
  | scheduler a => exact key _ h hid
  | job j => exact key _ h hid
  | processor a => exact key _ h hid
  | fetchToConnector dto => exact key _ h hid
  | connector f => exact key _ h hid
  | receiveToQueryManager dto => exact key _ h hid
  | handler t => exact key _ h.1 hid
  | fetchToTraffic dto => simp [owned] at hid
  | usageLogger dto u => simp [owned] at hid
  | receiveToCacheManager dto => simp [owned] at hid
  | updater u => simp [owned] at hid

/-! ### One reaction -/

section Reactions

variable {cfg : Settings} {s s' : Store} {t : Task} {c : Choice} {ts : List Task}

/-- **A reaction stays within the frame of the ids its task owns.** -/
theorem Reacts.frame (hok : t.Asserts s.db) (hnd : t.owned.Nodup) (h : Reacts cfg s t c s' ts) :
    Database.Frame t.owned s.db s'.db := by
  cases h with
  | creation h => exact Creation.frame_of_fires hok hnd h
  | handler h => exact Handler.frame_of_fires hok.2 h
  | _ => exact .refl _ _

/-- No drawn id is forgotten. -/
theorem Reacts.drawn (h : Reacts cfg s t c s' ts) : s.drawn ⊆ s'.drawn := by
  cases h with
  | @usageLogger dto u c log out hfresh h =>
    show s.drawn ⊆ s.drawnAfter c
    cases c with
    | draw id => exact List.subset_cons_self _ _
    | _ => exact fun _ hid => hid
  | _ => exact fun _ hid => hid

theorem Store.Good.of_frame {ids : List Uuid} (hgood : s.Good)
    (hf : Database.Frame ids s.db s'.db) (hids : ids ⊆ s'.drawn) (hdrawn : s.drawn ⊆ s'.drawn) :
    s'.Good where
  foreignKey id row' hrow' := by
    rcases hf.newRow id row' hrow' with ⟨row, hrow, hq⟩ | ⟨-, hq⟩
    · exact hf.mem_queries (hq ▸ hgood.foreignKey id row hrow)
    · exact hf.mem_queries hq
  subqueriesDrawn id hid := by
    by_cases hmem : id ∈ ids
    · exact hids hmem
    · refine hdrawn (hgood.subqueriesDrawn id ?_)
      rwa [← AList.lookup_isSome, ← hf.other id hmem, AList.lookup_isSome]
  queriesDrawn id hid := by
    rcases hf.newQuery id hid with hid | hid
    · exact hdrawn (hgood.queriesDrawn id hid)
    · exact hids hid

/-- An admission hands its id on. -/
theorem Admission.Fires.owned {onError : Outcome Admission} {isRateLimited : Bool}
    {dto : SubqueryDto} {phase : AdmissionPhase} {effect : AdmissionEffect}
    {out : Outcome Admission} {clock : ℕ} {wrap : Admission → Task}
    (h : Fires onError isRateLimited dto phase c effect out) (he : onError.tasks wrap = [])
    (hwrap : ∀ a, (wrap a).owned = [a.dto.id]) :
    ((effect.tasks clock ++ out.tasks wrap).flatMap Task.owned).Nodup ∧
      (effect.tasks clock ++ out.tasks wrap).flatMap Task.owned ⊆ [dto.id] := by
  cases h with
  | fails => simp [AdmissionEffect.tasks, he]
  | answers => simp [AdmissionEffect.tasks, hwrap]
  | queues => simp [AdmissionEffect.tasks, Task.owned]
  | emits => simp [AdmissionEffect.tasks, fetchMessages, Task.owned]

/-- **A reaction hands the ids of its task on without copying them.** -/
theorem Reacts.owned (hok : t.Asserts s.db) (hnd : t.owned.Nodup) (h : Reacts cfg s t c s' ts) :
    (ts.flatMap Task.owned).Nodup ∧ ts.flatMap Task.owned ⊆ t.owned := by
  cases h with
  | @creation t c e h =>
    obtain ⟨hids, hsub, -⟩ := Creation.awaits_of_fires hok hnd h
    have hemit : (e.emitted.map Task.scheduleFetch).flatMap Task.owned
        = e.emitted.flatMap fun p => p.id.toList := by
      rw [List.flatMap_map]
      rfl
    -- A creation that goes on publishes nothing, and one that publishes ends.
    rcases hout : e.outcome with t' | - | -
    · obtain ⟨-, howned⟩ := Creation.ok_of_fires hok h hout
      have hts : (e.tasks Task.creation).flatMap Task.owned = t.owned := by
        rw [Effect.tasks, Creation.emitted_of_fires h hout, hout]
        simpa [Task.owned] using howned
      rw [hts]
      exact ⟨hnd, List.Subset.refl _⟩
    all_goals
      have hts : (e.tasks Task.creation).flatMap Task.owned
          = e.emitted.flatMap fun p => p.id.toList := by
        rw [Effect.tasks, hout, ← hemit]
        simp
      rw [hts]
      exact ⟨hids, hsub⟩
  | scheduleFetch payload =>
    -- An event that fails its validation is dropped, and its id with it.
    cases hval : payload.validate with
    | none => simp [SubqueryPayload.tasks, hval]
    | some dto =>
      have hid : payload.id = some dto.id := payload.id_of_validate hval
      simp [SubqueryPayload.tasks, hval, Task.owned, hid]
  | scheduler h => exact h.owned rfl fun _ => rfl
  | processor h => exact h.owned rfl fun _ => rfl
  | job j hdue => simp [Task.owned]
  | fetchToConnector dto => simp [Task.owned]
  | fetchToTraffic dto => simp [Task.owned]
  | @usageLogger dto u c log out hfresh h => cases out <;> simp [Task.owned]
  | @connector f c effect out h =>
    obtain ⟨dto, phase⟩ := f
    cases h <;> simp [Task.owned, receiveMessages]
  | receiveToQueryManager dto result hpipe => simp [Task.owned]
  | refusedToQueryManager dto hpipe => simp
  | receiveToCacheManager dto result hpipe =>
    rcases updateCache { dto with result } with u | - | - <;> simp [Task.owned]
  | refusedToCacheManager dto hpipe => simp
  | @handler t c e h =>
    rw [Effect.tasks, Handler.emitted_of_fires h, List.map_nil, List.nil_append]
    cases hout : e.outcome with
    | suspended t' =>
      obtain ⟨hdto, -⟩ := Handler.suspended_of_fires hok.2 h hout
      simp [Task.owned, hdto]
    | resolved => simp
    | rejected => simp
  | @updater u c cache out h => cases out <;> simp [Task.owned]

/-- **A reaction establishes what its successors assert.** -/
theorem Reacts.asserts (hok : t.Asserts s.db) (hnd : t.owned.Nodup) (h : Reacts cfg s t c s' ts) :
    ∀ u ∈ ts, u.Asserts s'.db := by
  cases h with
  | creation h =>
    obtain ⟨-, -, haw⟩ := Creation.awaits_of_fires hok hnd h
    exact Effect.forall_tasks haw fun t' hout => (Creation.ok_of_fires hok h hout).1
  | handler h =>
    have hnone := Handler.emitted_of_fires h
    refine Effect.forall_tasks (by simp [hnone]) fun t' hout => ?_
    obtain ⟨hdto, hf⟩ := Handler.suspended_of_fires hok.2 h hout
    have haw : Awaits s.db t'.dto := hdto ▸ hok.1
    exact ⟨haw.frame hf (by simp), Handler.ok_of_fires hok.2 h hout⟩
  | scheduleFetch payload =>
    intro u hu
    obtain ⟨dto, hval, rfl⟩ := List.mem_map.mp hu
    obtain ⟨dto', hval', -, haw⟩ :=
      hok dto.id (payload.id_of_validate (Option.mem_toList.mp hval))
    rw [Option.mem_toList.mp hval] at hval'
    obtain rfl := Option.some.inj hval'
    exact haw
  | scheduler h => exact h.forall_tasks rfl (fun _ => hok) hok hok (Awaits.refers hok)
  | processor h => exact h.forall_tasks rfl (fun _ => hok) hok hok (Awaits.refers hok)
  | job j hdue =>
    intro u hu
    obtain rfl := List.mem_singleton.mp hu
    exact hok
  | fetchToConnector dto =>
    intro u hu
    obtain rfl := List.mem_singleton.mp hu
    exact hok
  | fetchToTraffic dto => simp [Task.Asserts]
  | usageLogger hfresh h => exact Outcome.forall_tasks fun _ _ => trivial
  | @connector f c effect out h =>
    obtain ⟨dto, phase⟩ := f
    cases h with
    | rejects => simp
    | hit => simp
    | unavailable => simp
    | miss =>
      intro u hu
      obtain rfl := List.mem_singleton.mp hu
      exact hok
    | fetched data =>
      have haw : Awaits s.db { dto with result := data } := Awaits.congr hok rfl rfl rfl
      simpa [receiveMessages, Task.Asserts] using ⟨haw, haw.refers⟩
  | receiveToQueryManager dto result hpipe =>
    intro u hu
    obtain rfl := List.mem_singleton.mp hu
    have haw : Awaits s.db { dto with result } := Awaits.congr hok rfl rfl rfl
    exact ⟨haw, haw.refers, trivial⟩
  | refusedToQueryManager dto hpipe => simp
  | receiveToCacheManager dto result hpipe =>
    exact Outcome.forall_tasks fun u hup => (CacheUpdate.ok_updateCache hup).1
  | refusedToCacheManager dto hpipe => simp
  | updater h =>
    refine Outcome.forall_tasks fun u hout => ?_
    subst hout
    exact (CacheUpdate.ok_of_fires hok h).1

/-- A creation starts with the ids drawn for it. -/
theorem owned_start {dto : CreateQueryRequestDto} {ids : List Uuid} {queryId : Uuid}
    (hlen : ids.length = dto.subqueries.length) :
    (processNewQueryRequestAsync
      (generateQueryEntityFromCreateDtoAsync dto ids queryId)).owned = queryId :: ids :=
  congrArg (queryId :: ·) (map_id_generateQueryEntity queryId hlen)

/-- From outside only fresh ids enter. -/
theorem Acts.owned {e : EnvAct} (h : Acts s e s' ts) :
    (ts.flatMap Task.owned).Nodup ∧ ∀ id ∈ ts.flatMap Task.owned, id ∉ s.drawn := by
  cases h with
  | create dto ids queryId hlen hnd hfresh =>
    rw [List.flatMap_singleton, Task.owned, owned_start hlen]
    exact ⟨hnd, hfresh⟩
  | _ => exact ⟨List.nodup_nil, by simp⟩

end Reactions

/-! ### The discipline -/

/-- **The ownership discipline of the system.** -/
def discipline (cfg : Settings) : Discipline (system cfg) Uuid where
  owned := Task.owned
  used s id := id ∈ s.drawn
  Good := Store.Good
  Ok := Task.Ok
  ok_used hok hid := hok.1 hid
  react_good hgood hok hnd hr :=
    have h := reacts_of_react hr
    hgood.of_frame (h.frame hok.2 hnd) (fun _ hid => h.drawn (hok.1 hid)) h.drawn
  react_ok hgood hok hnd hr u hu :=
    have h := reacts_of_react hr
    have howned := (h.owned hok.2 hnd).2
    ⟨fun _ hid => h.drawn (hok.1 (howned (List.mem_flatMap.mpr ⟨u, hu, hid⟩))),
      h.asserts hok.2 hnd u hu⟩
  react_owned hok hnd hr := (reacts_of_react hr).owned hok.2 hnd
  react_frame _ hok hnd hr hu hdis :=
    have h := reacts_of_react hr
    ⟨fun _ hid => h.drawn (hu.1 hid), hu.2.frame (h.frame hok.2 hnd) hdis⟩
  env_good := by
    intro s e s' ts hgood henv
    -- Nothing outside writes to the database.
    have hsame : ∀ s' : Store, s'.db = s.db → s.drawn ⊆ s'.drawn → s'.Good := by
      rintro s' hdb hdrawn
      have hf : Database.Frame [] s.db s'.db := hdb ▸ .refl _ _
      exact hgood.of_frame hf (List.nil_subset _) hdrawn
    cases acts_of_environment henv with
    | create dto ids queryId => exact hsame _ rfl fun _ hid => List.mem_append_right _ hid
    | poll id => exact hsame _ rfl fun _ hid => hid
    | tick ms => exact hsame _ rfl fun _ hid => hid
    | removeCacheEntry path => exact hsame _ rfl fun _ hid => hid
  env_ok := by
    intro s e s' ts hgood henv u hu
    cases acts_of_environment henv with
    | create dto ids queryId hlen hnd hfresh =>
      obtain rfl := List.mem_singleton.mp hu
      -- Ids that have not been drawn are in neither table.
      have hq : queryId ∉ s.db.queries := fun hmem =>
        hfresh queryId List.mem_cons_self (hgood.queriesDrawn _ hmem)
      have hids : ∀ id ∈ queryId :: ids, id ∉ s.db.subqueries := fun id hid hmem =>
        hfresh id hid (hgood.subqueriesDrawn _ hmem)
      refine ⟨fun id hid => List.mem_append_left _ ?_, Creation.ok_start hq hids ?_⟩
      · rwa [Task.owned, owned_start hlen] at hid
      · rintro id row hrow rfl
        exact hq (hgood.foreignKey id row hrow)
    | poll id => cases hu
    | tick ms => cases hu
    | removeCacheEntry path => cases hu
  env_owned henv := (acts_of_environment henv).owned
  env_frame := by
    intro s e s' ts u _ henv hu
    cases acts_of_environment henv with
    | create dto ids queryId => exact ⟨fun _ hid => List.mem_append_right _ (hu.1 hid), hu.2⟩
    | poll id => exact hu
    | tick ms => exact hu
    | removeCacheEntry path => exact hu

/-- An id stays in use, whatever reacts. -/
theorem used_react (cfg : Settings) {s : Store} {t : Task} {c : Choice} {s' : Store}
    {ts : List Task} {id : Uuid} (_ : (discipline cfg).Ok s t)
    (h : (system cfg).react s t c = some (s', ts)) (hid : (discipline cfg).used s id) :
    (discipline cfg).used s' id := (reacts_of_react h).drawn hid

/-- So it does, whatever happens outside. -/
theorem used_env (cfg : Settings) {s : Store} {e : EnvAct} {s' : Store} {ts : List Task}
    {id : Uuid} (h : (system cfg).env s e = some (s', ts)) (hid : (discipline cfg).used s id) :
    (discipline cfg).used s' id := by
  cases acts_of_environment h with
  | create dto ids queryId => exact List.mem_append_right _ hid
  | _ => exact hid

theorem inv_initial (cfg : Settings) : (discipline cfg).Inv initial where
  good := ⟨by simp [initial, Database.empty], by simp [initial, Database.empty],
    by simp [initial, Database.empty]⟩
  ok t ht := by cases ht
  nodup := List.nodup_nil

/-- Nothing stored, observed or alive, except that the cache may hold anything. -/
def startingWith (cache : ResourceCollection) : Sys := ⟨{ initial.store with cache }, []⟩

theorem inv_startingWith (cfg : Settings) (cache : ResourceCollection) :
    (discipline cfg).Inv (startingWith cache) where
  good := ⟨(inv_initial cfg).good.foreignKey, (inv_initial cfg).good.subqueriesDrawn,
    (inv_initial cfg).good.queriesDrawn⟩
  ok t ht := by cases ht
  nodup := List.nodup_nil

/-- **The discipline holds in every reachable state.** -/
theorem inv_of_reachable {cfg : Settings} {s : Sys} (h : Reachable (system cfg).step initial s) :
    (discipline cfg).Inv s :=
  h.invariant (inv_initial cfg) fun hI hs => Discipline.inv_step hI hs

/-! ### What a step changes -/

/-- How the database may develop: rows keep their path and query, a result once
stored is never touched again, and queries keep their callback. -/
structure Grows (db db' : Database) : Prop where
  keeps : ∀ id row, db.subqueries.lookup id = some row →
    ∃ row', db'.subqueries.lookup id = some row' ∧ row'.path = row.path ∧
      row'.queryId = row.queryId
  result : ∀ id row, db.subqueries.lookup id = some row → row.result ≠ .null →
    db'.subqueries.lookup id = some row
  query : ∀ id row, db.queries.lookup id = some row →
    ∃ row', db'.queries.lookup id = some row' ∧ row'.callbackUrl = row.callbackUrl

theorem Grows.refl (db : Database) : Grows db db where
  keeps _ row h := ⟨row, h, rfl, rfl⟩
  result _ _ h _ := h
  query _ row h := ⟨row, h, rfl⟩

theorem Grows.trans {db db' db'' : Database} (h : Grows db db') (h' : Grows db' db'') :
    Grows db db'' where
  keeps id row hrow := by
    obtain ⟨row', hrow', hpath, hq⟩ := h.keeps id row hrow
    obtain ⟨row'', hrow'', hpath', hq'⟩ := h'.keeps id row' hrow'
    exact ⟨row'', hrow'', hpath'.trans hpath, hq'.trans hq⟩
  result id row hrow hres := h'.result id row (h.result id row hrow hres) hres
  query id row hrow := by
    obtain ⟨row', hrow', hcb⟩ := h.query id row hrow
    obtain ⟨row'', hrow'', hcb'⟩ := h'.query id row' hrow'
    exact ⟨row'', hrow'', hcb'.trans hcb⟩

section Steps

variable {cfg : Settings} {s s' : Sys}

/-- One step changes only rows that are `null`. -/
theorem grows_step (hI : (discipline cfg).Inv s) {a : Act Choice EnvAct}
    (hs : (system cfg).step s a = some s') : Grows s.store.db s'.store.db := by
  rcases system_step_cases hs with ⟨i, c, t, rest, ts, -, hr, hreacts⟩ | ⟨e, ts, -, hacts, -⟩
  · have hok := (hI.ok t hr.mem).2
    have hf := hreacts.frame hok (hI.owned_runs hr).1
    refine ⟨hf.keeps, fun id row hrow hres => ?_, hf.query⟩
    -- The rows the step may touch are owned, and owned rows are `null`.
    rw [hf.other id fun hid => hres (hok.result_eq_null hid hrow), hrow]
  · rw [hacts.db]
    exact .refl _

/-- **The database grows along every run** out of a state with the invariant. -/
theorem grows_of_inv (hI : (discipline cfg).Inv s) (h : Reachable (system cfg).step s s') :
    Grows s.store.db s'.store.db := by
  obtain ⟨tr, h⟩ := h
  induction h with
  | nil => exact .refl _
  | snoc h hs ih => exact ih.trans (grows_step (Discipline.inv_of_run h hI) hs)

theorem grows_of_reachable (h₀ : Reachable (system cfg).step initial s)
    (h : Reachable (system cfg).step s s') : Grows s.store.db s'.store.db :=
  grows_of_inv (inv_of_reachable h₀) h

end Steps

end SwapiService
