import SwapiService.Completion

/-!
# Rows that are forgotten

A row without a result is filled only if its own id travels through all services.
As long as some task owns the id, it is on its way; once none does, the row is
`null` for ever.  When nothing fails there are four places where an id stops: a
creation that folds its subqueries into an object by their path, a connector that finds
its path in the cache, the pipe in front of the query manager, and a handler that has
been handed no result.

## Main definitions

* `faultless` — every call succeeds, bodies are truthy, the cache keeps its entries.
* `AllOnTheWay` — the id of every row without a result is owned.
* `SchedulesAll`, `Task.Forwards`, `Keeps` — the four places let the ids pass.

## Main results

* `Reacts.forwards_iff` — a reaction drops no id just in case it is at none of them.
* `no_row_forgotten_iff` — the exact condition, for every faultless run that ends with
  nothing in flight.
* `row_forgotten` — two queries that share a path.
-/

namespace SwapiService

open TaskPool Transition

/-- Every call succeeds, every body is truthy, and no cache entry is removed.  That the
database refuses a row with U+0000 in a text is no fault: it always does. -/
def faultless : Act Choice EnvAct → Bool
  | .run _ .fail => false
  | .run _ (.body data) => data.truthy
  | .env (.removeCacheEntry _) => false
  | _ => true

/-- The id of every row without a result is owned by a task. -/
def AllOnTheWay (s : Sys) : Prop :=
  ∀ id row, s.store.db.subqueries.lookup id = some row → row.result = .null →
    id ∈ s.pool.flatMap Task.owned

/-- The subqueries without a result have distinct paths, and none of these is a
property of `Object.prototype`. -/
def SchedulesAll (query : QueryEntity) : Prop :=
  ((missingSubqueries query).map SubqueryEntity.path).Nodup ∧
    ∀ e ∈ missingSubqueries query, e.path ∉ PlainObject.objectPrototypeKeys

/-- The task is neither a creation about to store rows it does not schedule, nor a
connector about to find its path in the cache, nor an event the query manager's pipe
refuses, nor a handler about to save no result. -/
def Task.Forwards (cfg : Settings) (cache : ResourceCollection) : Task → Prop
  | .creation t => t.phase = .saveSubqueries → t.query.Storable → SchedulesAll t.query
  | .connector f => f.phase = .readCache → ¬ (cache.cached f.dto.path).truthy = true
  | .receiveToQueryManager dto => cfg.transform dto.result ≠ none
  | .handler ⟨dto, .saveSubquery _ _ _⟩ => dto.result ≠ .null
  | _ => True

/-- The action runs no such task. -/
def Keeps (cfg : Settings) (s : Sys) : Act Choice EnvAct → Prop
  | .run i _ => ∀ t, s.pool[i]? = some t → t.Forwards cfg s.store.cache
  | .env _ => True

/-! ### One reaction -/

section Reactions

variable {cfg : Settings} {s s' : Store} {t : Task} {c : Choice} {ts : List Task}

/-- What a creation schedules is everything without a result, just in case the fold
loses nothing. -/
theorem schedulesAll_iff {query : QueryEntity}
    (hnd : (query.subqueries.map SubqueryEntity.id).Nodup) :
    SchedulesAll query ↔ ∀ e ∈ missingSubqueries query,
      e.id ∈ (scheduled query).map SubqueryEntity.id := by
  have hnodup : (missingSubqueries query).Nodup := (List.Nodup.of_map _ hnd).filter _
  rw [SchedulesAll, ← PlainObject.subset_collected_iff hnodup]
  constructor
  · intro hsub e he
    exact List.mem_map_of_mem (hsub he)
  · intro hids e he
    obtain ⟨e', he', hid⟩ := List.mem_map.mp (hids e he)
    have hmem := (mem_of_mem_scheduled he').1
    obtain rfl : e' = e :=
      List.inj_on_of_nodup_map hnd hmem (mem_missingSubqueries.mp he).1 hid
    exact he'

/-- Of the ids of a creation that has stored its rows, those of the rows without a result are
scheduled just in case the fold loses nothing. -/
theorem Creation.Ok.scheduled_iff {query : QueryEntity} {db' : Database}
    (hok : (⟨query, .saveSubqueries⟩ : Creation).Ok s.db)
    (hnd : (⟨query, .saveSubqueries⟩ : Creation).owned.Nodup)
    (hsave : s.db.saveSubqueries query.subqueries = some db') :
    (∀ id ∈ (⟨query, .saveSubqueries⟩ : Creation).owned, ∀ row,
      db'.subqueries.lookup id = some row → row.result = .null →
        id ∈ (scheduled query).map SubqueryEntity.id) ↔ SchedulesAll query := by
  obtain ⟨-, hother, hrows⟩ := hok.saved hnd hsave
  obtain ⟨hqid, hnd'⟩ := List.nodup_cons.mp hnd
  rw [schedulesAll_iff hnd']
  constructor
  · intro hall e he
    obtain ⟨hmem, hfalsy⟩ := mem_missingSubqueries.mp he
    refine hall e.id (List.mem_cons_of_mem _ (List.mem_map_of_mem hmem)) _ (hrows e hmem) ?_
    exact (hok.result e hmem).resolve_left hfalsy
  · intro hall id hid row hrow hnull
    rcases List.mem_cons.mp hid with rfl | hid
    · -- The id of the query is that of no row.
      rw [hother _ hqid] at hrow
      exact absurd (Database.mem_of_lookup hrow) (hok.fresh _ List.mem_cons_self)
    · obtain ⟨e, he, rfl⟩ := List.mem_map.mp hid
      rw [hrows e he] at hrow
      obtain rfl := Option.some.inj hrow
      refine hall e (mem_missingSubqueries.mpr ⟨he, fun ht => ?_⟩)
      exact Json.ne_null_of_truthy ht hnull

/-- **A creation drops no id** unless its fold does. -/
theorem Creation.forwards_iff {t : Creation} {e : Effect Creation} (hok : t.Ok s.db)
    (hnd : t.owned.Nodup) (h : Fires s.db s.cache t.query t.phase c e) (hc : c ≠ .fail) :
    (∀ id ∈ t.owned, ∀ row, e.db.subqueries.lookup id = some row → row.result = .null →
      id ∈ (e.tasks Task.creation).flatMap Task.owned) ↔
        (t.phase = .saveSubqueries → t.query.Storable → SchedulesAll t.query) := by
  obtain ⟨query, phase⟩ := t
  -- A creation that goes on keeps its ids, and one that stores nothing has no rows.
  have hgoes : ∀ t', e.outcome = .suspended t' → ∀ id ∈ (⟨query, phase⟩ : Creation).owned,
      id ∈ (e.tasks Task.creation).flatMap Task.owned := by
    intro t' ht' id hid
    rw [Effect.tasks, ht', Outcome.tasks_suspended, List.flatMap_append, List.mem_append]
    refine .inr ?_
    simpa [Task.owned, (Creation.ok_of_fires hok h ht').2] using hid
  have hnorow : ∀ id ∈ (⟨query, phase⟩ : Creation).owned, ∀ row,
      s.db.subqueries.lookup id ≠ some row := fun id hid row hrow =>
    hok.fresh id hid (Database.mem_of_lookup hrow)
  have hearly : ∀ phase', phase' ≠ CreationPhase.saveSubqueries →
      phase' = .saveSubqueries → query.Storable → SchedulesAll query := by
    intro phase' hne heq
    exact absurd heq hne
  -- A save that is refused leaves no row behind.
  have hstops : ∀ id ∈ (⟨query, phase⟩ : Creation).owned, ∀ row,
      s.db.subqueries.lookup id = some row → row.result = .null → id ∈ [].flatMap Task.owned :=
    fun id hid row hrow => absurd hrow (hnorow id hid row)
  cases h with
  | rejects => exact absurd rfl hc
  | reads => exact iff_of_true (fun id hid _ _ _ => hgoes _ rfl id hid) (hearly _ (by simp))
  | miss => exact iff_of_true (fun id hid _ _ _ => hgoes _ rfl id hid) (hearly _ (by simp))
  | savedQuery => exact iff_of_true (fun id hid _ _ _ => hgoes _ rfl id hid) (hearly _ (by simp))
  | hit => exact iff_of_true hstops (hearly _ (by simp))
  | refusedQuery => exact iff_of_true hstops (hearly _ (by simp))
  | unsaved hsave =>
    refine iff_of_true hstops fun _ hpaths => ?_
    obtain ⟨db', hsave', -⟩ := hok.saves hnd hpaths
    rw [hsave] at hsave'
    cases hsave'
  | savedSubqueries db' hsave =>
    have hpaths : query.Storable := Database.storable_of_saveSubqueries hok.query hsave
    have hids : (((targetSubqueries query).map (schedulePayload query.id)).map
        Task.scheduleFetch ++ []).flatMap Task.owned = (scheduled query).map SubqueryEntity.id := by
      rw [List.append_nil, List.flatMap_map]
      exact ids_scheduled query
    show (∀ id ∈ (⟨query, .saveSubqueries⟩ : Creation).owned, ∀ row,
      db'.subqueries.lookup id = some row → row.result = .null →
        id ∈ (((targetSubqueries query).map (schedulePayload query.id)).map
          Task.scheduleFetch ++ []).flatMap Task.owned) ↔ (_ → _ → SchedulesAll query)
    rw [hids, forall_prop_of_true rfl, forall_prop_of_true hpaths]
    exact hok.scheduled_iff hnd hsave

/-- **A handler drops no id** unless it is handed no result. -/
theorem Handler.forwards_iff {t : Handler} {e : Effect Handler}
    (hok : (Task.handler t).Asserts s.db) (h : Fires s.db s.cache t.dto t.phase c e)
    (hc : c ≠ .fail) :
    (∀ id ∈ [t.dto.id], ∀ row, e.db.subqueries.lookup id = some row → row.result = .null →
      id ∈ (e.tasks Task.handler).flatMap Task.owned) ↔
        (Task.handler t).Forwards cfg s.cache := by
  obtain ⟨dto, phase⟩ := t
  obtain ⟨hsub, hquery, hsaves⟩ := Handler.Ok.finds hok.2
  have hgoes : ∀ {p : Prop}, p → (∀ id ∈ [dto.id], id ∈ (e.tasks Task.handler).flatMap Task.owned) →
      ((∀ id ∈ [dto.id], ∀ row, e.db.subqueries.lookup id = some row → row.result = .null →
        id ∈ (e.tasks Task.handler).flatMap Task.owned) ↔ p) :=
    fun hp hall => iff_of_true (fun id hid _ _ _ => hall id hid) hp
  cases h with
  | rejects => exact absurd rfl hc
  | noSubquery hnone =>
    obtain ⟨e, he⟩ := hsub
    rw [hnone] at he
    cases he
  | noQuery subquery hnone =>
    obtain ⟨q, hq⟩ := hquery
    rw [hnone] at hq
    cases hq
  | unsaved subquery updated latest hnone =>
    obtain ⟨db', hdb'⟩ := hsaves rfl
    rw [hnone] at hdb'
    cases hdb'
  | savedSubquery subquery updated latest db' hsave =>
    -- The row has the result of the event, and nothing is left to do for it.
    obtain ⟨-, -, hown⟩ := hok.2.saved hsave
    show (∀ id ∈ [dto.id], ∀ row, db'.subqueries.lookup id = some row → row.result = .null →
      id ∈ [].flatMap Task.owned) ↔ dto.result ≠ .null
    constructor
    · intro hall hnull
      cases hall dto.id List.mem_cons_self _ hown hnull
    · intro hne id hid row hrow hnull
      obtain rfl := List.mem_singleton.mp hid
      obtain rfl := Option.some.inj (hown.symm.trans hrow)
      exact absurd hnull hne
  | _ => exact hgoes trivial fun id hid => by simpa [Effect.tasks, Task.owned] using hid

/-- **An admission drops no id.** -/
theorem Admission.Fires.passes {onError : Outcome Admission} {isRateLimited : Bool}
    {dto : SubqueryDto} {phase : AdmissionPhase} {effect : AdmissionEffect}
    {out : Outcome Admission} {clock : ℕ} {wrap : Admission → Task}
    (h : Fires onError isRateLimited dto phase c effect out) (hc : c ≠ .fail)
    (hwrap : ∀ a, (wrap a).owned = [a.dto.id]) :
    ∀ id ∈ [dto.id], id ∈ (effect.tasks clock ++ out.tasks wrap).flatMap Task.owned := by
  cases h with
  | fails => exact absurd rfl hc
  | answers => simp [AdmissionEffect.tasks, hwrap]
  | queues => simp [AdmissionEffect.tasks, Task.owned]
  | emits => simp [AdmissionEffect.tasks, fetchMessages, Task.owned]

/-- **A reaction drops no id** just in case it is at none of the four places. -/
theorem Reacts.forwards_iff (hok : t.Asserts s.db) (hnd : t.owned.Nodup)
    (h : Reacts cfg s t c s' ts) (hc : c ≠ .fail) :
    (∀ id ∈ t.owned, ∀ row, s'.db.subqueries.lookup id = some row → row.result = .null →
      id ∈ ts.flatMap Task.owned) ↔ t.Forwards cfg s.cache := by
  have hpass : t.Forwards cfg s.cache → (∀ id ∈ t.owned, id ∈ ts.flatMap Task.owned) →
      ((∀ id ∈ t.owned, ∀ row, s'.db.subqueries.lookup id = some row → row.result = .null →
        id ∈ ts.flatMap Task.owned) ↔ t.Forwards cfg s.cache) :=
    fun hf hall => iff_of_true (fun id hid _ _ _ => hall id hid) hf
  -- A row that awaits its result is `null`, so it is lost when nothing is left.
  have hlost : ∀ dto : SubqueryDto, Awaits s.db dto → ¬ ∀ id ∈ [dto.id], ∀ row,
      s.db.subqueries.lookup id = some row → row.result = .null → id ∈ [].flatMap Task.owned := by
    rintro dto ⟨row, hrow, -, -, -, hnull⟩ hall
    cases hall dto.id List.mem_cons_self row hrow hnull
  cases h with
  | creation h => exact Creation.forwards_iff hok hnd h hc
  | scheduleFetch payload =>
    -- An event that carries an id passes the validation.
    refine hpass trivial fun id hid => ?_
    obtain ⟨dto, hval, rfl, -⟩ := hok id (Option.mem_toList.mp hid)
    simp [SubqueryPayload.tasks, hval, Task.owned]
  | scheduler h => exact hpass trivial (h.passes hc fun _ => rfl)
  | processor h => exact hpass trivial (h.passes hc fun _ => rfl)
  | job j hdue => exact hpass trivial fun id hid => by simpa [Task.owned] using hid
  | fetchToConnector dto => exact hpass trivial fun id hid => by simpa [Task.owned] using hid
  | receiveToQueryManager dto result hpipe =>
    have hforwards : (Task.receiveToQueryManager dto).Forwards cfg s.cache := by
      show cfg.transform dto.result ≠ none
      rw [hpipe]
      exact Option.some_ne_none result
    exact hpass hforwards fun id hid => by simpa [Task.owned] using hid
  | refusedToQueryManager dto hpipe => exact iff_of_false (hlost dto hok) fun hf => hf hpipe
  | fetchToTraffic dto => exact hpass trivial fun id hid => by simp [Task.owned] at hid
  | receiveToCacheManager => exact hpass trivial fun id hid => by simp [Task.owned] at hid
  | refusedToCacheManager => exact hpass trivial fun id hid => by simp [Task.owned] at hid
  | usageLogger h => exact hpass trivial fun id hid => by simp [Task.owned] at hid
  | updater h => exact hpass trivial fun id hid => by simp [Task.owned] at hid
  | @connector f c effect out h =>
    obtain ⟨dto, phase⟩ := f
    cases h with
    | rejects => exact absurd rfl hc
    | unavailable => exact absurd rfl hc
    | hit htruthy =>
      -- The row awaits its result, and nothing is published.
      exact iff_of_false (hlost dto hok) fun hf => hf rfl htruthy
    | miss hmiss =>
      exact hpass (fun _ => hmiss) fun id hid => by simpa [Task.owned] using hid
    | fetched data =>
      have hforwards : (Task.connector ⟨dto, .get⟩).Forwards cfg s.cache := by
        intro hphase
        cases hphase
      refine hpass hforwards fun id hid => ?_
      simpa [receiveMessages, Task.owned] using hid
  | handler h => exact Handler.forwards_iff hok h hc

end Reactions

/-! ### Whole runs -/

section Runs

variable {cfg : Settings} {s s' : Sys} {a : Act Choice EnvAct}

/-- A row that nobody works on stays that way. -/
theorem allOnTheWay_of_step (hI : (discipline cfg).Inv s) (hs : (system cfg).step s a = some s')
    (h : AllOnTheWay s') : AllOnTheWay s := by
  intro id row hrow hnull
  rcases system_step_cases hs with ⟨i, c, t, rest, ts, rfl, hr, hreacts⟩ | ⟨e, ts, rfl, hacts, hp⟩
  · by_cases hid : id ∈ t.owned
    · exact List.mem_flatMap.mpr ⟨t, hr.mem, hid⟩
    · -- The step neither touches the row nor gives its id away.
      have hok := (hI.ok t hr.mem).2
      have hnd := (hI.owned_runs hr).1
      have hrow' := (hreacts.frame hok hnd).other id hid
      obtain ⟨u, hu, hidu⟩ := List.mem_flatMap.mp (h id row (hrow'.trans hrow) hnull)
      rcases hr.mem_pool'.mp hu with hu | hu
      · exact List.mem_flatMap.mpr ⟨u, hr.mem_of_rest hu, hidu⟩
      · exact absurd ((hreacts.owned hok hnd).2 (List.mem_flatMap.mpr ⟨u, hu, hidu⟩)) hid
  · have hmem := h id row (by rw [hacts.db]; exact hrow) hnull
    rw [hp, List.flatMap_append, List.mem_append] at hmem
    rcases hmem with hmem | hmem
    · exact hmem
    · -- New tasks own fresh ids, and the id of a row has been drawn.
      have hdrawn := hI.good.subqueriesDrawn id (Database.mem_of_lookup hrow)
      exact absurd hdrawn (hacts.owned.2 id hmem)

/-- Out of a state where all are on their way, a step without faults keeps them so
just in case it lets the ids pass. -/
theorem allOnTheWay_step (hI : (discipline cfg).Inv s) (hall : AllOnTheWay s)
    (hf : faultless a = true) (hs : (system cfg).step s a = some s') :
    AllOnTheWay s' ↔ Keeps cfg s a := by
  rcases system_step_cases hs with ⟨i, c, t, rest, ts, rfl, hr, hreacts⟩ | ⟨e, ts, rfl, hacts, hp⟩
  · have hok := (hI.ok t hr.mem).2
    obtain ⟨hnd, -, hdis⟩ := hI.owned_runs hr
    have hc : c ≠ .fail := by
      rintro rfl
      exact absurd hf (by simp [faultless])
    have hkeeps : Keeps cfg s (.run i c) ↔ t.Forwards cfg s.store.cache := by
      simp only [Keeps, hr.get, Option.some.injEq, forall_eq']
    rw [hkeeps, ← hreacts.forwards_iff hok hnd hc]
    constructor
    · intro h id hid row hrow hnull
      obtain ⟨u, hu, hidu⟩ := List.mem_flatMap.mp (h id row hrow hnull)
      rcases hr.mem_pool'.mp hu with hu | hu
      · exact absurd (List.mem_flatMap.mpr ⟨u, hu, hidu⟩) (hdis hid)
      · exact List.mem_flatMap.mpr ⟨u, hu, hidu⟩
    · intro h id row hrow hnull
      rw [hr.pool', List.flatMap_append, List.mem_append]
      by_cases hid : id ∈ t.owned
      · exact .inr (h id hid row hrow hnull)
      · rw [(hreacts.frame hok hnd).other id hid] at hrow
        have hmem := (hr.flatMap_pool Task.owned).mem_iff.mp (hall id row hrow hnull)
        exact .inl ((List.mem_append.mp hmem).resolve_left hid)
  · refine iff_of_true (fun id row hrow hnull => ?_) trivial
    rw [hacts.db] at hrow
    rw [hp, List.flatMap_append]
    exact List.mem_append_left _ (hall id row hrow hnull)

/-- **When no subquery is forgotten.**  In every run without faults that ends with
nothing in flight, all rows have results just in case every creation that stored
its rows scheduled all of them that had none, no connector found its path in the
cache, the pipe of the query manager let every event pass, and no handler was handed
`null`. -/
theorem no_row_forgotten_iff (cfg : Settings) {tr : List (Sys × Act Choice EnvAct)} {s : Sys}
    (h : Run (system cfg).step initial tr s) (hf : ∀ p ∈ tr, faultless p.2 = true)
    (hq : s.pool = []) :
    (∀ id row, s.store.db.subqueries.lookup id = some row → row.result ≠ .null) ↔
      ∀ p ∈ tr, Keeps cfg p.1 p.2 := by
  have hend : (∀ id row, s.store.db.subqueries.lookup id = some row → row.result ≠ .null) ↔
      AllOnTheWay s := by
    constructor
    · exact fun hall id row hrow hnull => absurd hnull (hall id row hrow)
    · intro hall id row hrow hnull
      have hmem := hall id row hrow hnull
      rw [hq] at hmem
      cases hmem
  -- At the end nobody owns an id, so a row on its way would be a row with a result.
  rw [hend]
  refine h.last_iff (A := fun _ a => faultless a = true) (I := (discipline cfg).Inv) hf
    (inv_initial cfg) ?_ (fun hI _ hs => Discipline.inv_step hI hs)
    (fun hI hs => allOnTheWay_of_step hI hs) fun hI hall hf hs => allOnTheWay_step hI hall hf hs
  intro id row hrow
  simp [initial, Database.empty] at hrow

end Runs

/-- Two queries for the same path.  Both are scheduled; by the time the connector
gets to the second, the first one's result is cached. -/
def sharedPath : List (Act Choice EnvAct) :=
  [.env (.create ⟨["people/1"], none⟩ [⟨0⟩] ⟨1⟩), .run 0 (.read 0), .run 0 .proceed,
    .run 0 .proceed, .run 0 .proceed,
    .env (.create ⟨["people/1"], none⟩ [⟨2⟩] ⟨3⟩), .run 1 (.read 0), .run 1 .proceed,
    .run 1 .proceed, .run 1 .proceed,
    -- The first query is served.
    .run 0 .proceed, .run 1 .proceed, .run 1 .proceed, .run 1 .proceed, .run 2 .proceed,
    .run 2 (.body (.structured "\x7b\x7d")), .run 3 .proceed, .run 3 .proceed, .run 3 .proceed,
    .run 2 .proceed, .run 2 .proceed, .run 2 .proceed, .run 2 (.read 0), .run 2 .proceed,
    .run 2 .proceed, .run 2 .proceed, .run 1 .proceed, .run 1 (.draw ⟨4⟩), .run 1 .proceed,
    -- The second one is dropped.
    .run 0 .proceed, .run 0 .proceed, .run 0 .proceed, .run 0 .proceed, .run 1 .proceed,
    .run 0 .proceed, .run 0 (.draw ⟨5⟩), .run 0 .proceed]

/-- **A row that is forgotten** without a single fault: nothing is in flight, and the
row of the second query is `null`. -/
theorem row_forgotten :
    ∃ tr s, Run (system ⟨2, "http://swapi", some⟩).step initial tr s ∧
      (∀ p ∈ tr, faultless p.2 = true) ∧ s.pool = [] ∧
      s.store.db.subqueries.lookup ⟨2⟩ = some ⟨"people/1", ⟨3⟩, .null⟩ := by
  have hexec : (exec (system ⟨2, "http://swapi", some⟩).step initial sharedPath).any (fun s =>
      s.pool = [] ∧ s.store.db.subqueries.lookup ⟨2⟩ = some ⟨"people/1", ⟨3⟩, .null⟩) = true := by
    decide +kernel
  have hfault : ∀ a ∈ sharedPath, faultless a = true := by decide
  obtain ⟨tr, s, hrun, htr, hp⟩ := exists_run_of_exec _ hexec
  rw [← htr, List.forall_mem_map] at hfault
  exact ⟨tr, s, hrun, hfault, of_decide_eq_true hp⟩

theorem no_row_forgotten_iff_sharedPath :
    ∃ tr s, Run (system ⟨2, "http://swapi", some⟩).step initial tr s ∧
      tr.map Prod.snd = sharedPath ∧
      ((∀ id row, s.store.db.subqueries.lookup id = some row → row.result ≠ .null) ↔
        ∀ p ∈ tr, Keeps ⟨2, "http://swapi", some⟩ p.1 p.2) := by
  have hexec : (exec (system ⟨2, "http://swapi", some⟩).step initial sharedPath).any
      (fun s => s.pool = []) = true := by decide +kernel
  have hfault : ∀ a ∈ sharedPath, faultless a = true := by decide
  obtain ⟨tr, s, hrun, htr, hpool⟩ := exists_run_of_exec _ hexec
  rw [← htr, List.forall_mem_map] at hfault
  exact ⟨tr, s, hrun, htr, no_row_forgotten_iff _ hrun hfault (of_decide_eq_true hpool)⟩

end SwapiService
