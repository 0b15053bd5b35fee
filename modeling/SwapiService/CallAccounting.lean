import SwapiService.Lib.Books
import SwapiService.LostWork

/-!
# Usages and calls

A `FETCH` event goes to two services.  The traffic controller logs a usage, the connector
issues a GET, and neither knows of the other.  No two events are the same, and each of them
is accounted for twice: its usage was logged, or lost, or is due; and its GET was issued, or
spared, or is due.

## Main definitions

* `Reaction.fetches` — the `FETCH` event an admission emits.
* `Reaction.records`, `Reaction.losesUsage` — the event whose usage is logged, or lost.
* `Reaction.calls` — the event whose GET is issued.
* `Reaction.findsCached`, `Reaction.failsRead` — the event whose GET is spared.
* `UsagesMatchCalls` — the usages that were logged are those of the GETs.

## Main results

* `nodup_fetchEvents` — no event is emitted twice.
* `urls_callsMade` — the GETs are those of the events.
* `usages_of_run`, `calls_of_run` — how the events are accounted for.
* `usage_matches_calls_iff` — when usages match calls, event by event.
* `usage_without_call` — a usage logged for a fetch that the cache answered.
-/

namespace SwapiService

open TaskPool Transition

/-- The `FETCH` event an admission emits. -/
@[simp] def Reaction.fetches (r : Reaction Store Task Choice) : List SubqueryDto :=
  match r.task, r.choice with
  | .scheduler ⟨dto, .answered false⟩, .proceed => [dto]
  | .processor ⟨dto, .answered false⟩, .proceed => [dto]
  | _, _ => []

/-- The event whose usage is added to the log. -/
@[simp] def Reaction.records (r : Reaction Store Task Choice) : List SubqueryDto :=
  match r.task, r.choice with
  | .usageLogger dto (.multiExec _ _), .proceed => [dto]
  | _, _ => []

/-- The event whose usage will never be logged, as a call of `logUsage` fails. -/
@[simp] def Reaction.losesUsage (r : Reaction Store Task Choice) : List SubqueryDto :=
  match r.task, r.choice with
  | .usageLogger dto _, .fail => [dto]
  | _, _ => []

/-- The event whose GET is issued, and answered or not. -/
@[simp] def Reaction.calls (r : Reaction Store Task Choice) : List SubqueryDto :=
  match r.task, r.choice with
  | .connector ⟨dto, .get⟩, .body _ => [dto]
  | .connector ⟨dto, .get⟩, .fail => [dto]
  | _, _ => []

/-- The event that the connector answers from the cache. -/
@[simp] def Reaction.findsCached (r : Reaction Store Task Choice) : List SubqueryDto :=
  match r.task, r.choice with
  | .connector ⟨dto, .readCache⟩, .proceed =>
      if (r.store.cache.cached dto.path).truthy = true then [dto] else []
  | _, _ => []

/-- The event that the connector drops, as its cache read fails. -/
@[simp] def Reaction.failsRead (r : Reaction Store Task Choice) : List SubqueryDto :=
  match r.task, r.choice with
  | .connector ⟨dto, .readCache⟩, .fail => [dto]
  | _, _ => []

/-- The event whose usage is still to be logged. -/
@[simp] def Task.owesUsage : Task → List SubqueryDto
  | .fetchToTraffic dto => [dto]
  | .usageLogger dto _ => [dto]
  | _ => []

/-- The event whose GET is still to be issued, or to be answered. -/
@[simp] def Task.owesCall : Task → List SubqueryDto
  | .fetchToConnector dto => [dto]
  | .connector f => [f.dto]
  | _ => []

section Traces

variable (tr : List (Sys × Act Choice EnvAct))

/-- The `FETCH` events that were emitted. -/
def fetchEvents : List SubqueryDto := (reactions tr).flatMap Reaction.fetches

/-- Those whose usages were logged. -/
def recorded : List SubqueryDto := (reactions tr).flatMap Reaction.records

/-- Those whose usages were lost. -/
def usagesLost : List SubqueryDto := (reactions tr).flatMap Reaction.losesUsage

/-- Those whose GETs were issued. -/
def callsMade : List SubqueryDto := (reactions tr).flatMap Reaction.calls

/-- Those that were answered from the cache. -/
def foundCached : List SubqueryDto := (reactions tr).flatMap Reaction.findsCached

/-- Those whose connectors were done with their cache read: it found the path, or failed. -/
def callsSpared : List SubqueryDto :=
  foundCached tr ++ (reactions tr).flatMap Reaction.failsRead

end Traces

/-- As many usages were logged as GETs were issued; no GET goes unrecorded, and no usage is
logged for an event that was answered from the cache. -/
structure UsagesMatchCalls (tr : List (Sys × Act Choice EnvAct)) (s : Sys) : Prop where
  count : (recorded tr).length = s.store.gets.length
  called : ∀ dto ∈ callsMade tr, dto ∈ recorded tr
  cached : ∀ dto ∈ foundCached tr, dto ∉ recorded tr

/-! ### One reaction -/

section Reactions

variable {cfg : Settings} {s s' : Store} {t : Task} {c : Choice} {ts : List Task}

/-- Tasks with which no event is due. -/
theorem Task.flatMap_owes (h : ∀ u ∈ ts, u.owesUsage = [] ∧ u.owesCall = []) :
    ts.flatMap Task.owesUsage = [] ∧ ts.flatMap Task.owesCall = [] :=
  ⟨List.flatMap_eq_nil_iff.mpr fun u hu => (h u hu).1,
    List.flatMap_eq_nil_iff.mpr fun u hu => (h u hu).2⟩

/-- **An event is accounted for twice**: its usage is logged, or lost, or stays due, and its
GET is issued, or spared, or stays due. -/
theorem Reacts.accounts (h : Reacts cfg s t c s' ts) :
    ((Reaction.records ⟨s, t, c⟩ ++ Reaction.losesUsage ⟨s, t, c⟩)
        ++ ts.flatMap Task.owesUsage).Perm (Reaction.fetches ⟨s, t, c⟩ ++ t.owesUsage) ∧
      ((Reaction.calls ⟨s, t, c⟩
        ++ (Reaction.findsCached ⟨s, t, c⟩ ++ Reaction.failsRead ⟨s, t, c⟩))
        ++ ts.flatMap Task.owesCall).Perm (Reaction.fetches ⟨s, t, c⟩ ++ t.owesCall) := by
  -- Admissions, connectors and loggers have or emit an event, and nothing else does.
  cases h with
  | @scheduler a _ _ _ h =>
    obtain ⟨dto, phase⟩ := a
    cases h <;> simp [AdmissionEffect.tasks, fetchMessages]
  | @processor a _ _ _ h =>
    obtain ⟨dto, phase⟩ := a
    cases h <;> simp [AdmissionEffect.tasks, fetchMessages]
  | usageLogger hfresh h => cases h <;> simp
  | @connector f _ _ _ h =>
    obtain ⟨dto, phase⟩ := f
    cases h with
    | hit htruthy => simp [htruthy]
    | miss hmiss => simp [hmiss]
    | _ => simp [receiveMessages]
  | @creation _ _ e h =>
    have howes : ∀ u ∈ e.tasks Task.creation, u.owesUsage = [] ∧ u.owesCall = [] :=
      Effect.forall_tasks (fun _ _ => ⟨rfl, rfl⟩) fun _ _ => ⟨rfl, rfl⟩
    obtain ⟨husage, hcall⟩ := Task.flatMap_owes howes
    rw [husage, hcall]
    simp
  | @handler _ _ e h =>
    have howes : ∀ u ∈ e.tasks Task.handler, u.owesUsage = [] ∧ u.owesCall = [] :=
      Effect.forall_tasks (fun _ _ => ⟨rfl, rfl⟩) fun _ _ => ⟨rfl, rfl⟩
    obtain ⟨husage, hcall⟩ := Task.flatMap_owes howes
    rw [husage, hcall]
    simp
  | scheduleFetch payload =>
    obtain ⟨husage, hcall⟩ := Task.flatMap_owes
      (SubqueryPayload.forall_tasks fun _ => ⟨rfl, rfl⟩)
    rw [husage, hcall]
    simp
  | receiveToCacheManager dto result =>
    have howes : ∀ u ∈ (updateCache { dto with result }).tasks Task.updater,
        u.owesUsage = [] ∧ u.owesCall = [] := Outcome.forall_tasks fun _ _ => ⟨rfl, rfl⟩
    obtain ⟨husage, hcall⟩ := Task.flatMap_owes howes
    rw [husage, hcall]
    simp
  | @updater _ _ _ out h =>
    have howes : ∀ u ∈ out.tasks Task.updater, u.owesUsage = [] ∧ u.owesCall = [] :=
      Outcome.forall_tasks fun _ _ => ⟨rfl, rfl⟩
    obtain ⟨husage, hcall⟩ := Task.flatMap_owes howes
    rw [husage, hcall]
    simp
  | _ => simp

/-- A GET is booked with its event. -/
theorem Reacts.urls (h : Reacts cfg s t c s' ts) : s'.gets.map HttpGet.url = s.gets.map HttpGet.url
    ++ (Reaction.calls ⟨s, t, c⟩).map fun dto => resourceUrl cfg.swapiBaseUrl dto.path := by
  cases h with
  | @connector f _ _ _ h =>
    obtain ⟨dto, phase⟩ := f
    cases h <;> simp
  | creation h => simp [Effect.store]
  | handler h => simp [Effect.store]
  | _ => simp

/-- Nothing from outside owes a usage or a call. -/
theorem Acts.flatMap_owes {e : EnvAct} (h : Acts s e s' ts) :
    ts.flatMap Task.owesUsage = [] ∧ ts.flatMap Task.owesCall = [] :=
  Task.flatMap_owes (h.forall_tasks fun _ _ _ => ⟨rfl, rfl⟩)

/-! ### One event for each subquery -/

/-- The ids a task owns for which no `FETCH` event was emitted yet. -/
def Task.unfetched : Task → List Uuid
  | .fetchToConnector _ => []
  | .connector _ => []
  | .receiveToQueryManager _ => []
  | .handler _ => []
  | t => t.owned

theorem Task.unfetched_subset (t : Task) : t.unfetched ⊆ t.owned := by
  cases t <;> simp [unfetched]

/-- An event is emitted for an id for which there was none. -/
theorem fetches_subset (r : Reaction Store Task Choice) :
    (Reaction.fetches r).map SubqueryDto.id ⊆ r.task.unfetched := by
  unfold Reaction.fetches
  split
  · next hr _ => simp [hr, Task.unfetched, Task.owned]
  · next hr _ => simp [hr, Task.unfetched, Task.owned]
  · simp

/-- **No id is up for a second event**: what is left without one was so before, and the
reaction has not emitted it. -/
theorem Reacts.unfetched (hok : t.Asserts s.db) (hnd : t.owned.Nodup) (h : Reacts cfg s t c s' ts) :
    ∀ u ∈ ts, ∀ id ∈ u.unfetched, id ∈ t.unfetched ∧
      id ∉ (Reaction.fetches ⟨s, t, c⟩).map SubqueryDto.id := by
  intro u hu id hid
  have hid' : id ∈ t.owned :=
    (h.owned hok hnd).2 (List.mem_flatMap.mpr ⟨u, hu, u.unfetched_subset hid⟩)
  have hlate : (∀ v ∈ ts, v.unfetched = []) → id ∈ t.unfetched ∧
      id ∉ (Reaction.fetches ⟨s, t, c⟩).map SubqueryDto.id := by
    intro hnone
    rw [hnone u hu] at hid
    cases hid
  cases h with
  | creation => exact ⟨hid', by simp⟩
  | scheduleFetch => exact ⟨hid', by simp⟩
  | job => exact ⟨hid', by simp⟩
  | @scheduler a _ _ _ h =>
    obtain ⟨dto, phase⟩ := a
    cases h with
    | emits =>
      exact hlate (by simp [AdmissionEffect.tasks, fetchMessages, Task.unfetched, Task.owned])
    | _ => exact ⟨hid', by simp⟩
  | @processor a _ _ _ h =>
    obtain ⟨dto, phase⟩ := a
    cases h with
    | emits =>
      exact hlate (by simp [AdmissionEffect.tasks, fetchMessages, Task.unfetched, Task.owned])
    | _ => exact ⟨hid', by simp⟩
  | fetchToConnector => exact hlate (by simp [Task.unfetched])
  | @connector f _ _ _ h =>
    obtain ⟨dto, phase⟩ := f
    apply hlate
    cases h <;> simp [receiveMessages, Task.unfetched, Task.owned]
  | receiveToQueryManager => exact hlate (by simp [Task.unfetched])
  | refusedToQueryManager => cases hu
  | handler h =>
    exact hlate (Effect.forall_tasks (by simp [Handler.emitted_of_fires h]) fun _ _ => rfl)
  | _ => cases hid'

/-- For the ids a task has without an event none was emitted. -/
def Task.NotFetched (h : List (Reaction Store Task Choice)) (t : Task) : Prop :=
  ∀ id ∈ t.unfetched, id ∉ (h.flatMap Reaction.fetches).map SubqueryDto.id

theorem notFetched_snoc {h : List (Reaction Store Task Choice)} {r : Reaction Store Task Choice}
    {id : Uuid} (hold : id ∉ (h.flatMap Reaction.fetches).map SubqueryDto.id)
    (hnew : id ∉ (Reaction.fetches r).map SubqueryDto.id) :
    id ∉ ((h ++ [r]).flatMap Reaction.fetches).map SubqueryDto.id := by
  rw [List.flatMap_append, List.flatMap_singleton, List.map_append, List.mem_append]
  exact not_or.mpr ⟨hold, hnew⟩

end Reactions

/-- **No event was emitted for what is still to be fetched**, as assertions about the past. -/
def fetchHistory (cfg : Settings) : History (discipline cfg) where
  Asserts h _ t := t.NotFetched h
  react_used := @used_react cfg
  env_used := @used_env cfg
  react_asserts := by
    intro h s t c s' ts _ hok hnd hnone hr u hu id hid
    obtain ⟨hid', hnew⟩ := (reacts_of_react hr).unfetched hok.2 hnd u hu id hid
    exact notFetched_snoc (hnone id hid') hnew
  react_frame := by
    intro h s t c s' ts u _ hok hnd hr hu hdis hnone id hid
    refine notFetched_snoc (hnone id hid) fun hmem => ?_
    exact hdis (t.unfetched_subset (fetches_subset _ hmem)) (u.unfetched_subset hid)
  env_asserts := by
    intro h s e s' ts hused henv u hu id hid hmem
    obtain ⟨-, hfresh⟩ := (acts_of_environment henv).owned
    obtain ⟨dto, hdto, rfl⟩ := List.mem_map.mp hmem
    obtain ⟨r, hr, hfetch⟩ := List.mem_flatMap.mp hdto
    have howned := r.task.unfetched_subset (fetches_subset r (List.mem_map_of_mem hfetch))
    exact hfresh dto.id (List.mem_flatMap.mpr ⟨u, hu, u.unfetched_subset hid⟩)
      (hused r hr dto.id howned)
  env_frame _ hnone := hnone

/-! ### Runs -/

/-- The books of the usages. -/
def usageBooks (cfg : Settings) : Books (system cfg) SubqueryDto where
  entered := Reaction.fetches
  settled r := Reaction.records r ++ Reaction.losesUsage r
  opened := Task.owesUsage
  react hr := (reacts_of_react hr).accounts.1
  env henv := (acts_of_environment henv).flatMap_owes.1

/-- The books of the GETs. -/
def callBooks (cfg : Settings) : Books (system cfg) SubqueryDto where
  entered := Reaction.fetches
  settled r := Reaction.calls r ++ (Reaction.findsCached r ++ Reaction.failsRead r)
  opened := Task.owesCall
  react hr := (reacts_of_react hr).accounts.2
  env henv := (acts_of_environment henv).flatMap_owes.2

section Runs

variable {cfg : Settings} {tr : List (Sys × Act Choice EnvAct)} {s s' : Sys}

/-- **No `FETCH` event is emitted twice**: no two have the same id. -/
theorem nodup_fetchEvents (h : Run (system cfg).step initial tr s) :
    ((fetchEvents tr).map SubqueryDto.id).Nodup := by
  induction h with
  | nil => exact List.nodup_nil
  | @snoc tr s s' a h hs ih =>
    rw [fetchEvents]
    rcases system_step_cases hs with ⟨i, c, t, rest, ts, rfl, hr, -⟩ | ⟨e, ts, rfl, -, -⟩
    · have hnone := (fetchHistory cfg).asserts_of_run h (inv_initial cfg) rfl t hr.mem
      rw [reactions_run hr, List.flatMap_append, List.flatMap_singleton, List.map_append]
      refine ih.append ?_ fun id hold hnew => hnone id (fetches_subset _ hnew) hold
      -- One reaction emits one event at most.
      unfold Reaction.fetches
      split <;> simp
    · rw [reactions_env]
      exact ih

/-- **The GETs are those of the events**, in this order. -/
theorem urls_callsMade (h : Run (system cfg).step initial tr s) : s.store.gets.map HttpGet.url
    = (callsMade tr).map fun dto => resourceUrl cfg.swapiBaseUrl dto.path := by
  induction h with
  | nil => rfl
  | @snoc tr s s' a h hs ih =>
    rw [callsMade] at ih ⊢
    rcases system_step_cases hs with ⟨i, c, t, rest, ts, rfl, hr, hreacts⟩ | ⟨e, ts, rfl, hacts, -⟩
    · rw [reactions_run hr, List.flatMap_append, List.flatMap_singleton, List.map_append, ← ih]
      exact hreacts.urls
    · rw [reactions_env, ← ih]
      generalize s'.store = store at hacts ⊢
      cases hacts <;> rfl

/-- **The usage of every event** was logged, or lost, or is due. -/
theorem usages_of_run (h : Run (system cfg).step initial tr s) :
    (recorded tr ++ usagesLost tr ++ s.pool.flatMap Task.owesUsage).Perm (fetchEvents tr) :=
  ((List.flatMap_append_perm _ _ _).append_right _).trans ((usageBooks cfg).perm_of_run h rfl)

/-- **The GET of every event** was issued, or spared, or is due. -/
theorem calls_of_run (h : Run (system cfg).step initial tr s) :
    (callsMade tr ++ callsSpared tr ++ s.pool.flatMap Task.owesCall).Perm (fetchEvents tr) := by
  have hspared := (List.flatMap_append_perm (reactions tr) Reaction.findsCached
    Reaction.failsRead).append_left (callsMade tr)
  have hsettled := hspared.trans (List.flatMap_append_perm _ _ _)
  exact (hsettled.append_right _).trans ((callBooks cfg).perm_of_run h rfl)

/-- Usages match calls just in case they are of the same events. -/
theorem usagesMatchCalls_iff_perm (h : Run (system cfg).step initial tr s) (hq : s.pool = []) :
    UsagesMatchCalls tr s ↔ (recorded tr).Perm (callsMade tr) := by
  have husages := usages_of_run h
  have hcalls := calls_of_run h
  have hevents := (nodup_fetchEvents h).of_map
  rw [hq, List.flatMap_nil, List.append_nil] at husages hcalls
  have hrecorded := (List.nodup_append'.mp (husages.nodup_iff.mpr hevents)).1
  obtain ⟨hcalled, -, hdis⟩ := List.nodup_append'.mp (hcalls.nodup_iff.mpr hevents)
  have hlength : s.store.gets.length = (callsMade tr).length := by
    simpa using congrArg List.length (urls_callsMade h)
  constructor
  · rintro ⟨hcount, hmem, -⟩
    refine ((hcalled.subperm hmem).perm_of_length_le ?_).symm
    exact Nat.le_of_eq (hcount.trans hlength)
  · intro hperm
    refine ⟨hperm.length_eq.trans hlength.symm, fun dto => hperm.mem_iff.mpr, ?_⟩
    intro dto hcached hmem
    exact hdis (hperm.mem_iff.mp hmem) (List.mem_append_left _ hcached)

/-- **When usages match calls.**  In every run that ends with nothing in flight, the usages
that were logged are those of the GETs just in case, for every `FETCH` event, a call of its
`logUsage` failed if and only if its connector was done with its cache read, because the
path was cached or the read failed. -/
theorem usage_matches_calls_iff (cfg : Settings) (h : Run (system cfg).step initial tr s)
    (hq : s.pool = []) : UsagesMatchCalls tr s ↔
      ∀ dto ∈ fetchEvents tr, (dto ∈ usagesLost tr ↔ dto ∈ callsSpared tr) := by
  have husages := usages_of_run h
  have hcalls := calls_of_run h
  rw [hq, List.flatMap_nil, List.append_nil] at husages hcalls
  rw [usagesMatchCalls_iff_perm h hq]
  exact perm_iff_remainder (nodup_fetchEvents h).of_map husages hcalls

end Runs

theorem usage_matches_calls_iff_sharedPath :
    ∃ tr s, Run (system ⟨2, "http://swapi", some⟩).step initial tr s ∧
      tr.map Prod.snd = sharedPath ∧ (fetchEvents tr).length = 2 ∧
      (UsagesMatchCalls tr s ↔
        ∀ dto ∈ fetchEvents tr, (dto ∈ usagesLost tr ↔ dto ∈ callsSpared tr)) := by
  have hexec : (execTrace (system ⟨2, "http://swapi", some⟩).step initial sharedPath).any
      (fun r => r.2.pool = [] ∧ (fetchEvents r.1).length = 2) = true := by decide +kernel
  obtain ⟨tr, s, hrun, htr, hp⟩ := exists_run_of_execTrace _ hexec
  obtain ⟨hpool, hevents⟩ := of_decide_eq_true hp
  exact ⟨tr, s, hrun, htr, hevents, usage_matches_calls_iff _ hrun hpool⟩

/-- **A usage without a call**: nothing is in flight and no call has failed, two usages were
logged for one GET, and one of them for a fetch that was answered from the cache. -/
theorem usage_without_call :
    ∃ tr s, Run (system ⟨2, "http://swapi", some⟩).step initial tr s ∧
      tr.map Prod.snd = sharedPath ∧ (∀ p ∈ tr, faultless p.2 = true) ∧ s.pool = [] ∧
      (recorded tr).length = 2 ∧ s.store.gets.length = 1 ∧ ¬ UsagesMatchCalls tr s := by
  have hexec : (execTrace (system ⟨2, "http://swapi", some⟩).step initial sharedPath).any (fun r =>
      r.2.pool = [] ∧ (recorded r.1).length = 2 ∧ r.2.store.gets.length = 1) = true := by
    decide +kernel
  have hfault : ∀ a ∈ sharedPath, faultless a = true := by decide
  obtain ⟨tr, s, hrun, htr, hp⟩ := exists_run_of_execTrace _ hexec
  rw [← htr, List.forall_mem_map] at hfault
  obtain ⟨hpool, htwo, hone⟩ := of_decide_eq_true hp
  refine ⟨tr, s, hrun, htr, hfault, hpool, htwo, hone, fun hmatch => ?_⟩
  have hcount := hmatch.count
  rw [htwo, hone] at hcount
  cases hcount

end SwapiService
