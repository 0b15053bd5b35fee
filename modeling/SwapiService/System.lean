import SwapiService.QueryManager
import SwapiService.RequestScheduler
import SwapiService.SwapiConnector
import SwapiService.TrafficController

/-!
# The whole system

The services put together.  The store holds what the services share or keep: the
databases, the clock, and records of what was observed outside.  The pool holds
the messages in flight, the jobs of the queue and the suspended activations.

An event is delivered exactly once to each service that subscribes to it: a
`FETCH` event to the connector and to the traffic controller, a `RECEIVE` event
to the query manager and to the cache manager.  It is put into the pool once for
each of them.  On its way a result is serialised by the client of the broker, parsed
again, and transformed by the pipe in front of the handler.  These are packages outside
the repository, so what they make of it is a parameter.

## Main definitions

* `Settings` — the configuration, and what becomes of a result on its way.
* `Settings.received` — a `RECEIVE` event as a handler gets it.
* `Task`, `Store`, `EnvAct` — tasks, shared state, and what happens from outside.
* `react`, `environment`, `system` — the machine.
* `initial` — the system before its first request.

## Main results

* `reacts_of_react`, `acts_of_environment`, `system_step_cases` — what one step
  can do.
-/

namespace SwapiService

open TaskPool

/-- What the system runs with: the settings the services read from their environment,
and what the packages they use make of a result. -/
structure Settings where
  requestLimit : ℕ
  swapiBaseUrl : String
  /-- The result of a `RECEIVE` event as a handler gets it: written as JSON and parsed
  by the client of the broker, and copied by `RpcDtoValidationPipe`, which is configured
  with `transform`.  There is none if the pipe throws, and then no handler is called.
  An infinity is written as `null`, for instance, and an object loses its own
  `toString`; a copy of what is once transformed is the same again. -/
  transform : Json → Option Json

/-- A `RECEIVE` event as a handler gets it, unless the pipe refuses it. -/
def Settings.received (cfg : Settings) (dto : SubqueryDto) : Option SubqueryDto :=
  (cfg.transform dto.result).map fun result => { dto with result }

/-- What can be alive: a message in flight, a job of the queue, or an activation
of a handler.  `logUsage` takes no argument; the event it was called for is kept to tell
its activations apart. -/
inductive Task
  | creation (t : Creation)
  | scheduleFetch (payload : SubqueryPayload)
  | scheduler (a : Admission)
  | job (j : Job)
  | processor (a : Admission)
  | fetchToConnector (dto : SubqueryDto)
  | fetchToTraffic (dto : SubqueryDto)
  | usageLogger (dto : SubqueryDto) (u : UsageLogging)
  | connector (f : Fetch)
  | receiveToQueryManager (dto : SubqueryDto)
  | receiveToCacheManager (dto : SubqueryDto)
  | handler (t : Handler)
  | updater (u : CacheUpdate)
  deriving DecidableEq, Repr

/-- The shared state: the three databases, the clock, the UUIDs drawn so far, and
what was observed outside, the GETs, the POSTs and the responses. -/
structure Store where
  db : Database
  cache : ResourceCollection
  usage : UsageLog
  clock : ℕ
  drawn : List Uuid
  gets : List HttpGet
  posts : List Notification
  created : List CreateQueryResponseDto
  polled : List QueryDto

/-- A state of the system. -/
abbrev Sys := Config Store Task

/-- What happens from outside: a client creates a query, and the ids that will be
drawn for it; a client polls; time passes; a cache entry is removed. -/
inductive EnvAct
  | create (dto : CreateQueryRequestDto) (ids : List Uuid) (queryId : Uuid)
  | poll (id : Uuid)
  | tick (ms : ℕ)
  | removeCacheEntry (path : String)
  deriving DecidableEq, Repr

/-- The messages of a `FETCH` event, one for each subscriber. -/
def fetchMessages (dto : SubqueryDto) : List Task := [.fetchToConnector dto, .fetchToTraffic dto]

/-- The messages of a `RECEIVE` event, one for each subscriber. -/
def receiveMessages (dto : SubqueryDto) : List Task :=
  [.receiveToQueryManager dto, .receiveToCacheManager dto]

/-- What an admission puts into the pool at time `clock`. -/
def AdmissionEffect.tasks (clock : ℕ) : AdmissionEffect → List Task
  | .none => []
  | .emitFetch dto => fetchMessages dto
  | .addJob dto delay => [.job ⟨dto, clock + delay⟩]

/-- The reply to a `RATE_LIMIT_USAGE_READ`. -/
def Store.isRateLimited (cfg : Settings) (s : Store) : Bool :=
  s.usage.getIsRateLimitedAsync cfg.requestLimit

/-- What a segment of the query manager does to the store. -/
def Effect.store {α : Type} (e : Effect α) (s : Store) : Store :=
  { s with db := e.db, created := s.created ++ e.responses, posts := s.posts ++ e.posts }

/-- What a segment of the query manager puts into the pool. -/
def Effect.tasks {α : Type} (e : Effect α) (wrap : α → Task) : List Task :=
  e.emitted.map .scheduleFetch ++ e.outcome.tasks wrap

/-- The activation a validated `SCHEDULE_FETCH` event starts. -/
def SubqueryPayload.tasks (p : SubqueryPayload) : List Task :=
  p.validate.toList.map fun dto => .scheduler ⟨dto, .readUsage⟩

/-- The UUID an activation draws has not been drawn before. -/
def Store.fresh (s : Store) : Choice → Bool
  | .draw id => id ∉ s.drawn
  | _ => true

/-- The UUIDs drawn after a choice. -/
def Store.drawnAfter (s : Store) : Choice → List Uuid
  | .draw id => id :: s.drawn
  | _ => s.drawn

/-- How a task reacts.  Delivering a message starts the handler it is for; an
activation runs one segment. -/
def react (cfg : Settings) (s : Store) : Task → Choice → Option (Store × List Task)
  | .creation t, c => (t.step s.db s.cache c).map fun e => (e.store s, e.tasks .creation)
  | .scheduleFetch payload, .proceed => some (s, payload.tasks)
  | .scheduler a, c => (scheduleRequestAsync (s.isRateLimited cfg) a c).map fun r =>
      (s, r.1.tasks s.clock ++ r.2.tasks .scheduler)
  -- The queue runs a job once, some time after its delay.
  | .job j, .proceed =>
      if j.due ≤ s.clock then some (s, [.processor ⟨j.data, .readUsage⟩]) else none
  | .processor a, c => (process (s.isRateLimited cfg) a c).map fun r =>
      (s, r.1.tasks s.clock ++ r.2.tasks .processor)
  | .fetchToConnector dto, .proceed => some (s, [.connector ⟨dto, .readCache⟩])
  | .fetchToTraffic dto, .proceed => some (s, [.usageLogger dto .getUsageCount])
  -- Logging does not depend on what is fetched.
  | .usageLogger dto u, c =>
      if s.fresh c then
        (logUsageStep s.clock s.usage u c).map fun r =>
          ({ s with usage := r.1, drawn := s.drawnAfter c }, r.2.tasks (.usageLogger dto))
      else none
  | .connector f, c => (fetchDataStep cfg.swapiBaseUrl s.cache f c).map fun r =>
      ({ s with gets := s.gets ++ r.1.gets },
        r.1.emitted.flatMap receiveMessages ++ r.2.tasks .connector)
  | .receiveToQueryManager dto, .proceed =>
      some (s, (cfg.received dto).elim [] fun dto => [.handler ⟨dto, .findSubquery⟩])
  | .receiveToCacheManager dto, .proceed =>
      some (s, (cfg.received dto).elim [] fun dto => (updateCache dto).tasks .updater)
  | .handler t, c => (t.step s.db s.cache c).map fun e => (e.store s, e.tasks .handler)
  | .updater u, c => (u.step s.cache c).map fun r =>
      ({ s with cache := r.1 }, r.2.tasks .updater)
  | _, _ => none

/-- How the environment acts.  The ids of a new query are fresh version 4 UUIDs. -/
def environment (s : Store) : EnvAct → Option (Store × List Task)
  | .create dto ids queryId =>
      if ids.length = dto.subqueries.length ∧ (queryId :: ids).Nodup ∧
          ∀ id ∈ queryId :: ids, id ∉ s.drawn then
        some ({ s with drawn := queryId :: ids ++ s.drawn },
          [.creation (processNewQueryRequestAsync
            (generateQueryEntityFromCreateDtoAsync dto ids queryId))])
      else none
  | .poll id => some ({ s with polled := s.polled ++ [fetchQueryResultsAsync s.db id] }, [])
  | .tick ms =>
      some ({ s with clock := s.clock + ms, usage := s.usage.lapse (s.clock + ms) }, [])
  | .removeCacheEntry path => some ({ s with cache := s.cache.remove path }, [])

/-- The system. -/
def system (cfg : Settings) : Machine Store Task Choice EnvAct := ⟨react cfg, environment⟩

/-- Nothing stored, nothing observed, nothing alive. -/
def initial : Sys :=
  ⟨⟨.empty, .empty, .empty, 0, [], [], [], [], []⟩, []⟩

/-! ### What one step can do -/

/-- The reactions of the tasks, case by case. -/
inductive Reacts (cfg : Settings) (s : Store) : Task → Choice → Store → List Task → Prop
  | creation {t : Creation} {c : Choice} {e : Effect Creation}
      (h : Creation.Fires s.db s.cache t.query t.phase c e) :
      Reacts cfg s (.creation t) c (e.store s) (e.tasks .creation)
  | scheduleFetch (payload : SubqueryPayload) :
      Reacts cfg s (.scheduleFetch payload) .proceed s payload.tasks
  | scheduler {a : Admission} {c : Choice} {effect : AdmissionEffect} {out : Outcome Admission}
      (h : Admission.Fires .rejected (s.isRateLimited cfg) a.dto a.phase c effect out) :
      Reacts cfg s (.scheduler a) c s (effect.tasks s.clock ++ out.tasks .scheduler)
  | job (j : Job) (h : j.due ≤ s.clock) :
      Reacts cfg s (.job j) .proceed s [.processor ⟨j.data, .readUsage⟩]
  | processor {a : Admission} {c : Choice} {effect : AdmissionEffect} {out : Outcome Admission}
      (h : Admission.Fires .resolved (s.isRateLimited cfg) a.dto a.phase c effect out) :
      Reacts cfg s (.processor a) c s (effect.tasks s.clock ++ out.tasks .processor)
  | fetchToConnector (dto : SubqueryDto) :
      Reacts cfg s (.fetchToConnector dto) .proceed s [.connector ⟨dto, .readCache⟩]
  | fetchToTraffic (dto : SubqueryDto) :
      Reacts cfg s (.fetchToTraffic dto) .proceed s [.usageLogger dto .getUsageCount]
  | usageLogger {dto : SubqueryDto} {u : UsageLogging} {c : Choice} {log : UsageLog}
      {out : Outcome UsageLogging} (hfresh : s.fresh c = true)
      (h : UsageLogging.Fires s.clock s.usage u c log out) :
      Reacts cfg s (.usageLogger dto u) c { s with usage := log, drawn := s.drawnAfter c }
        (out.tasks (.usageLogger dto))
  | connector {f : Fetch} {c : Choice} {effect : FetchEffect} {out : Outcome Fetch}
      (h : Fetch.Fires cfg.swapiBaseUrl s.cache f.dto f.phase c effect out) :
      Reacts cfg s (.connector f) c { s with gets := s.gets ++ effect.gets }
        (effect.emitted.flatMap receiveMessages ++ out.tasks .connector)
  | receiveToQueryManager (dto : SubqueryDto) (result : Json)
      (h : cfg.transform dto.result = some result) :
      Reacts cfg s (.receiveToQueryManager dto) .proceed s
        [.handler ⟨{ dto with result }, .findSubquery⟩]
  | refusedToQueryManager (dto : SubqueryDto) (h : cfg.transform dto.result = none) :
      Reacts cfg s (.receiveToQueryManager dto) .proceed s []
  | receiveToCacheManager (dto : SubqueryDto) (result : Json)
      (h : cfg.transform dto.result = some result) :
      Reacts cfg s (.receiveToCacheManager dto) .proceed s
        ((updateCache { dto with result }).tasks .updater)
  | refusedToCacheManager (dto : SubqueryDto) (h : cfg.transform dto.result = none) :
      Reacts cfg s (.receiveToCacheManager dto) .proceed s []
  | handler {t : Handler} {c : Choice} {e : Effect Handler}
      (h : Handler.Fires s.db s.cache t.dto t.phase c e) :
      Reacts cfg s (.handler t) c (e.store s) (e.tasks .handler)
  | updater {u : CacheUpdate} {c : Choice} {cache : ResourceCollection}
      {out : Outcome CacheUpdate} (h : CacheUpdate.Fires s.cache u.dto u.phase c cache out) :
      Reacts cfg s (.updater u) c { s with cache } (out.tasks .updater)

/-- **What one reaction can do.** -/
theorem reacts_of_react {cfg : Settings} {s s' : Store} {t : Task} {c : Choice} {ts : List Task}
    (h : react cfg s t c = some (s', ts)) : Reacts cfg s t c s' ts := by
  cases t with
  | creation t =>
    obtain ⟨e, he, h⟩ := Option.map_eq_some_iff.mp h
    cases h
    exact .creation (Creation.fires_of_step he)
  | handler t =>
    obtain ⟨e, he, h⟩ := Option.map_eq_some_iff.mp h
    cases h
    exact .handler (Handler.fires_of_step he)
  | scheduler a =>
    obtain ⟨⟨effect, out⟩, he, h⟩ := Option.map_eq_some_iff.mp h
    cases h
    exact .scheduler (fires_of_admissionStep he)
  | processor a =>
    obtain ⟨⟨effect, out⟩, he, h⟩ := Option.map_eq_some_iff.mp h
    cases h
    exact .processor (fires_of_admissionStep he)
  | connector f =>
    obtain ⟨⟨effect, out⟩, he, h⟩ := Option.map_eq_some_iff.mp h
    cases h
    exact .connector (fires_of_fetchDataStep he)
  | updater u =>
    obtain ⟨⟨cache, out⟩, he, h⟩ := Option.map_eq_some_iff.mp h
    cases h
    exact .updater (CacheUpdate.fires_of_step he)
  | usageLogger dto u =>
    simp only [react] at h
    split_ifs at h with hfresh
    obtain ⟨⟨log, out⟩, he, h⟩ := Option.map_eq_some_iff.mp h
    cases h
    exact .usageLogger hfresh (fires_of_logUsageStep he)
  | job j =>
    cases c with
    | proceed =>
      simp only [react] at h
      split_ifs at h with hdue
      cases h
      exact .job j hdue
    | _ => cases h
  | scheduleFetch payload => cases c <;> cases h; exact .scheduleFetch payload
  | fetchToConnector dto => cases c <;> cases h; exact .fetchToConnector dto
  | fetchToTraffic dto => cases c <;> cases h; exact .fetchToTraffic dto
  | receiveToQueryManager dto =>
    cases c with
    | proceed =>
      cases h
      cases hpipe : cfg.transform dto.result with
      | none => rw [Settings.received, hpipe]; exact .refusedToQueryManager dto hpipe
      | some result =>
        rw [Settings.received, hpipe]
        exact .receiveToQueryManager dto result hpipe
    | _ => cases h
  | receiveToCacheManager dto =>
    cases c with
    | proceed =>
      cases h
      cases hpipe : cfg.transform dto.result with
      | none => rw [Settings.received, hpipe]; exact .refusedToCacheManager dto hpipe
      | some result =>
        rw [Settings.received, hpipe]
        exact .receiveToCacheManager dto result hpipe
    | _ => cases h

theorem Reacts.of_creation {cfg : Settings} {s s' : Store} {t : Creation} {c : Choice}
    {ts : List Task} (h : Reacts cfg s (.creation t) c s' ts) :
    ∃ e, Creation.Fires s.db s.cache t.query t.phase c e ∧ s' = e.store s ∧
      ts = e.tasks .creation := by
  cases h with
  | @creation _ _ e h => exact ⟨e, h, rfl, rfl⟩

theorem Reacts.of_handler {cfg : Settings} {s s' : Store} {t : Handler} {c : Choice}
    {ts : List Task} (h : Reacts cfg s (.handler t) c s' ts) :
    ∃ e, Handler.Fires s.db s.cache t.dto t.phase c e ∧ s' = e.store s ∧ ts = e.tasks .handler := by
  cases h with
  | @handler _ _ e h => exact ⟨e, h, rfl, rfl⟩

/-- Only the query manager writes to its database. -/
theorem Reacts.db_eq {cfg : Settings} {s s' : Store} {t : Task} {c : Choice} {ts : List Task}
    (h : Reacts cfg s t c s' ts) (hcreation : ∀ u, t ≠ .creation u)
    (hhandler : ∀ u, t ≠ .handler u) : s'.db = s.db := by
  cases h with
  | creation h => exact absurd rfl (hcreation _)
  | handler h => exact absurd rfl (hhandler _)
  | _ => rfl

/-- What can happen from outside, case by case. -/
inductive Acts (s : Store) : EnvAct → Store → List Task → Prop
  | create (dto : CreateQueryRequestDto) (ids : List Uuid) (queryId : Uuid)
      (hlen : ids.length = dto.subqueries.length) (hnd : (queryId :: ids).Nodup)
      (hfresh : ∀ id ∈ queryId :: ids, id ∉ s.drawn) :
      Acts s (.create dto ids queryId) { s with drawn := queryId :: ids ++ s.drawn }
        [.creation (processNewQueryRequestAsync
          (generateQueryEntityFromCreateDtoAsync dto ids queryId))]
  | poll (id : Uuid) :
      Acts s (.poll id) { s with polled := s.polled ++ [fetchQueryResultsAsync s.db id] } []
  | tick (ms : ℕ) :
      Acts s (.tick ms) { s with clock := s.clock + ms, usage := s.usage.lapse (s.clock + ms) } []
  | removeCacheEntry (path : String) :
      Acts s (.removeCacheEntry path) { s with cache := s.cache.remove path } []

/-- **What one action from outside can do.** -/
theorem acts_of_environment {s s' : Store} {e : EnvAct} {ts : List Task}
    (h : environment s e = some (s', ts)) : Acts s e s' ts := by
  cases e with
  | create dto ids queryId =>
    simp only [environment] at h
    split_ifs at h with hguard
    cases h
    exact .create dto ids queryId hguard.1 hguard.2.1 hguard.2.2
  | poll id => cases h; exact .poll id
  | tick ms => cases h; exact .tick ms
  | removeCacheEntry path => cases h; exact .removeCacheEntry path

/-- **What one step can do.** -/
theorem system_step_cases {cfg : Settings} {s s' : Sys} {a : Act Choice EnvAct}
    (h : (system cfg).step s a = some s') :
    (∃ i c t rest ts, a = .run i c ∧ (system cfg).Runs s i c s' t rest ts ∧
      Reacts cfg s.store t c s'.store ts) ∨
      ∃ e ts, a = .env e ∧ Acts s.store e s'.store ts ∧ s'.pool = s.pool ++ ts := by
  rcases Machine.step_cases h with ⟨i, c, t, rest, ts, ha, hr⟩ | ⟨e, ts, ha, henv, hpool⟩
  · exact .inl ⟨i, c, t, rest, ts, ha, hr, reacts_of_react hr.react⟩
  · exact .inr ⟨e, ts, ha, acts_of_environment henv, hpool⟩

/-! ### What enters the pool -/

/-- The events of a segment of the query manager, and its next segment. -/
theorem Effect.forall_tasks {α : Type} {e : Effect α} {wrap : α → Task} {P : Task → Prop}
    (hemit : ∀ p ∈ e.emitted, P (.scheduleFetch p))
    (h : ∀ t, e.outcome = .suspended t → P (wrap t)) : ∀ u ∈ e.tasks wrap, P u := by
  intro u hu
  rcases List.mem_append.mp hu with hu | hu
  · obtain ⟨p, hp, rfl⟩ := List.mem_map.mp hu
    exact hemit p hp
  · exact Outcome.forall_tasks h u hu

/-- An event that passes its validation starts an activation. -/
theorem SubqueryPayload.forall_tasks {payload : SubqueryPayload} {P : Task → Prop}
    (h : ∀ dto, P (.scheduler ⟨dto, .readUsage⟩)) : ∀ u ∈ payload.tasks, P u := by
  intro u hu
  obtain ⟨dto, -, rfl⟩ := List.mem_map.mp hu
  exact h dto

/-- An admission goes on, becomes a job, or becomes a `FETCH` event. -/
theorem Admission.Fires.forall_tasks {onError : Outcome Admission} {isRateLimited : Bool}
    {dto : SubqueryDto} {phase : AdmissionPhase} {c : Choice} {effect : AdmissionEffect}
    {out : Outcome Admission} {clock : ℕ} {wrap : Admission → Task} {P : Task → Prop}
    (h : Fires onError isRateLimited dto phase c effect out) (he : onError.tasks wrap = [])
    (hwrap : ∀ phase', P (wrap ⟨dto, phase'⟩)) (hjob : P (.job ⟨dto, clock + requestDelay⟩))
    (hconnector : P (.fetchToConnector dto)) (htraffic : P (.fetchToTraffic dto)) :
    ∀ u ∈ effect.tasks clock ++ out.tasks wrap, P u := by
  cases h with
  | fails => simp [AdmissionEffect.tasks, he]
  | answers => simpa [AdmissionEffect.tasks] using hwrap _
  | queues => simpa [AdmissionEffect.tasks] using hjob
  | emits => simpa [AdmissionEffect.tasks, fetchMessages] using ⟨hconnector, htraffic⟩

/-- From outside only creations enter. -/
theorem Acts.forall_tasks {s s' : Store} {e : EnvAct} {ts : List Task} (h : Acts s e s' ts)
    {P : Task → Prop} (hcreate : ∀ dto ids queryId, P (.creation (processNewQueryRequestAsync
      (generateQueryEntityFromCreateDtoAsync dto ids queryId)))) : ∀ u ∈ ts, P u := by
  cases h with
  | create dto ids queryId => simpa using hcreate dto ids queryId
  | _ => simp

/-- Nothing outside writes to the database. -/
theorem Acts.db {s s' : Store} {e : EnvAct} {ts : List Task} (h : Acts s e s' ts) :
    s'.db = s.db := by
  cases h <;> rfl

end SwapiService
