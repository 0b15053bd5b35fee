import Mathlib.Data.List.Dedup
import SwapiService.ApiGateway
import SwapiService.Lib.History
import SwapiService.Lib.Tickets

/-!
# What requests cost

Every GET of the downstream service, every POST to a callback and every response goes
back to a request of a client, and each request pays for a limited number of them,
whatever fails, however often a path is put back on the queue, and in whichever order
things happen: one response; for each distinct path it names one GET of that path, and
one POST for the query it creates.

## Main definitions

* `requestsIn tr` — the requests of a run, with the ids drawn for their queries.
* `Creation.listing`, `Creation.requested` — the subqueries a creation works on, and their
  paths.
* `getTickets`, `postTickets`, `responseTickets` — the tickets.

## Main results

* `gets_covered_by_requests` — GETs, path by path.
* `posts_covered_by_requests` — POSTs, query by query.
* `responses_answer_requests` — responses, request by request.
-/

namespace SwapiService

open TaskPool Transition

/-! ### Requests -/

/-- The request an action makes, with the id drawn for its query. -/
def EnvAct.request : EnvAct → List (CreateQueryRequestDto × Uuid)
  | .create dto _ queryId => [(dto, queryId)]
  | _ => []

/-- The requests of a run, with the ids drawn for their queries. -/
def requestsIn (tr : List (Sys × Act Choice EnvAct)) : List (CreateQueryRequestDto × Uuid) :=
  issuedIn EnvAct.request tr

/-- They depend on the actions alone. -/
theorem requestsIn_of_map {tr : List (Sys × Act Choice EnvAct)} {acts : List (Act Choice EnvAct)}
    (h : tr.map Prod.snd = acts) : requestsIn tr = acts.flatMap fun
      | .env e => e.request
      | .run _ _ => [] := by
  rw [← h, List.flatMap_map]
  refine List.flatMap_congr fun p _ => ?_
  cases p.2 <;> rfl

/-- What is issued for requests. -/
theorem issuedIn_request {β : Type} (f : CreateQueryRequestDto × Uuid → List β)
    (tr : List (Sys × Act Choice EnvAct)) :
    issuedIn (fun e => e.request.flatMap f) tr = (requestsIn tr).flatMap f := by
  rw [requestsIn, issuedIn, issuedIn, List.flatMap_assoc]
  congr 1
  funext p
  cases p.2 <;> rfl

/-- The ids and paths of the subqueries a creation works on, as it holds them. -/
def Creation.listing (t : Creation) : List (Uuid × String) :=
  match t.phase with
  | .readCache reads => reads.map fun r => (r.request.id, r.request.path)
  | _ => t.query.subqueries.map fun e => (e.id, e.path)

/-- The paths alone. -/
def Creation.requested (t : Creation) : List String := t.listing.map Prod.snd

/-- Replies carry the ids and paths of their requests, position by position. -/
theorem map_listing_allReplies {V : String → Json → Prop} {reads : List CacheRead}
    {replies : List SubqueryDto} (hok : ∀ r ∈ reads, r.Ok V) (h : allReplies reads = some replies) :
    (replies.map fun d => (d.id, d.path)) = reads.map fun r => (r.request.id, r.request.path) := by
  rw [allReplies, promiseAll_eq_some] at h
  induction reads generalizing replies with
  | nil =>
    obtain rfl : replies = [] := by simpa using h.symm
    rfl
  | cons r reads ih =>
    cases replies with
    | nil => simp at h
    | cons d replies =>
      rw [List.map_cons, List.map_cons, List.cons.injEq] at h
      obtain ⟨hd, hrest⟩ := h
      obtain ⟨heq, -⟩ := hok r List.mem_cons_self d hd
      have hpair : (d.id, d.path) = (r.request.id, r.request.path) := by rw [heq]
      rw [List.map_cons, List.map_cons, hpair,
        ih (fun r' hr' => hok r' (List.mem_cons_of_mem _ hr')) hrest]

theorem listing_start {dto : CreateQueryRequestDto} {ids : List Uuid} {queryId : Uuid} :
    (processNewQueryRequestAsync
      (generateQueryEntityFromCreateDtoAsync dto ids queryId)).listing
        = ids.zip dto.subqueries := by
  show (startReads _).map _ = _
  rw [startReads, subqueries_generateQueryEntity, List.map_map, List.map_map]
  exact List.map_id _

theorem requested_start {dto : CreateQueryRequestDto} {ids : List Uuid} {queryId : Uuid}
    (h : ids.length = dto.subqueries.length) :
    (processNewQueryRequestAsync
      (generateQueryEntityFromCreateDtoAsync dto ids queryId)).requested = dto.subqueries := by
  rw [Creation.requested, listing_start]
  exact List.map_snd_zip (le_of_eq h.symm)

section Segments

variable {db : Database} {cache : ResourceCollection} {query : QueryEntity} {phase : CreationPhase}
  {c : Choice} {e : Effect Creation}

/-- A creation that goes on works on the same subqueries, for the same query. -/
theorem Creation.listing_of_fires (hok : (⟨query, phase⟩ : Creation).Ok db)
    (h : Fires db cache query phase c e) {t : Creation} (ht : e.outcome = .suspended t) :
    t.listing = (⟨query, phase⟩ : Creation).listing ∧ t.query.id = query.id ∧
      t.query.callbackUrl = query.callbackUrl := by
  cases h with
  | rejects => cases ht
  | hit => cases ht
  | refusedQuery => cases ht
  | unsaved => cases ht
  | savedSubqueries => cases ht
  | reads reads reads' j hans =>
    obtain rfl := Outcome.suspended.inj ht
    have hreq := (ok_answerRead (truthyOrNull_cached cache) hans).1
    have hpairs := congrArg (List.map fun d : SubqueryDto => (d.id, d.path)) hreq
    rw [List.map_map, List.map_map] at hpairs
    exact ⟨hpairs, rfl, rfl⟩
  | miss reads newSubqueries hall hmiss =>
    obtain rfl := Outcome.suspended.inj ht
    refine ⟨?_, rfl, rfl⟩
    show (newSubqueries.map (subqueryOfReply query)).map (fun e => (e.id, e.path)) = _
    rw [List.map_map]
    exact map_listing_allReplies (hok.reads reads rfl).2 hall
  | savedQuery =>
    obtain rfl := Outcome.suspended.inj ht
    exact ⟨rfl, rfl, rfl⟩

/-- The paths in the events of a query are those of the subqueries it schedules. -/
theorem paths_scheduled (query : QueryEntity) :
    (((targetSubqueries query).map (schedulePayload query.id)).flatMap fun p => p.path.toList)
      = (scheduled query).map SubqueryEntity.path := by
  unfold scheduled PlainObject.collected targetSubqueries
  induction (PlainObject.collect SubqueryEntity.path (missingSubqueries query)).values with
  | nil => rfl
  | cons v vs ih =>
    rw [List.map_cons, List.flatMap_cons, ih]
    cases v with
    | value q => rfl
    | builtin name => rfl

/-- **The events of a creation ask for distinct paths**, all of them requested, and on
behalf of its own query. -/
theorem Creation.emitted_covered (h : Fires db cache query phase c e) :
    (e.emitted.flatMap fun p => p.path.toList).Nodup ∧
      (e.emitted.flatMap fun p => p.path.toList) ⊆ (⟨query, phase⟩ : Creation).requested ∧
      ∀ p ∈ e.emitted, p.queryId = query.id := by
  cases h with
  | savedSubqueries db' hsave =>
    refine ⟨?_, ?_, fun p hp => ?_⟩
    · rw [paths_scheduled]
      exact PlainObject.nodup_map_collected SubqueryEntity.path (missingSubqueries query)
    · rw [paths_scheduled]
      intro path hpath
      obtain ⟨q, hq, rfl⟩ := List.mem_map.mp hpath
      exact List.mem_map.mpr ⟨_, List.mem_map_of_mem (mem_of_mem_scheduled hq).1, rfl⟩
    · obtain ⟨v, -, rfl⟩ := List.mem_map.mp hp
      cases v <;> rfl
  | _ => exact ⟨List.nodup_nil, List.nil_subset _, by simp⟩

end Segments

/-! ### Tickets for results -/

section Results

variable {β : Type} (f : String → Uuid → β) (answers : Bool)

/-- The tickets of a task: one for each path it is still to be asked for, up to the GET,
or, if `answers`, up to the save of the result. -/
def Task.tickets : Task → List β
  | .creation t => t.requested.dedup.map (f · t.query.id)
  | .scheduleFetch payload => payload.path.toList.map (f · payload.queryId)
  | .scheduler a => [f a.dto.path a.dto.queryId]
  | .job j => [f j.data.path j.data.queryId]
  | .processor a => [f a.dto.path a.dto.queryId]
  | .fetchToConnector dto => [f dto.path dto.queryId]
  | .connector u => [f u.dto.path u.dto.queryId]
  | .receiveToQueryManager dto => if answers then [f dto.path dto.queryId] else []
  | .handler t => if answers then [f t.dto.path t.dto.queryId] else []
  | _ => []

variable {f answers} {cfg : Settings} {s s' : Store} {t : Task} {c : Choice} {ts : List Task}

/-- **A creation hands on one ticket for each distinct path at most.** -/
theorem Creation.tickets_subperm {cache : ResourceCollection} {t : Creation} {e : Effect Creation}
    (hok : t.Ok s.db) (h : Fires s.db cache t.query t.phase c e) :
    ((e.tasks Task.creation).flatMap (Task.tickets f answers)).Subperm
      ((Task.creation t).tickets f answers) := by
  obtain ⟨hnd, hsub, hquery⟩ := emitted_covered h
  have hemitted : (e.emitted.map Task.scheduleFetch).flatMap (Task.tickets f answers)
      = (e.emitted.flatMap fun p => p.path.toList).map (f · t.query.id) := by
    rw [List.flatMap_map, List.map_flatMap]
    refine List.flatMap_congr fun p hp => ?_
    show p.path.toList.map (f · p.queryId) = _
    rw [hquery p hp]
  rw [Effect.tasks, List.flatMap_append, hemitted]
  cases hout : e.outcome with
  | suspended t' =>
    obtain ⟨hlisting, hid, -⟩ := listing_of_fires hok h hout
    rw [emitted_of_fires h hout, Outcome.tasks_suspended, List.flatMap_singleton]
    show (t'.requested.dedup.map (f · t'.query.id)).Subperm _
    rw [requested, hlisting, hid]
    exact .refl _
  | resolved =>
    simp only [Outcome.tasks_resolved, List.flatMap_nil, List.append_nil]
    exact subperm_map _ (hnd.subperm fun path hp => List.mem_dedup.mpr (hsub hp))
  | rejected =>
    simp only [Outcome.tasks_rejected, List.flatMap_nil, List.append_nil]
    exact subperm_map _ (hnd.subperm fun path hp => List.mem_dedup.mpr (hsub hp))

/-- **An admission hands its ticket on.** -/
theorem Admission.Fires.tickets_subperm {onError : Outcome Admission} {isRateLimited : Bool}
    {dto : SubqueryDto} {phase : AdmissionPhase} {effect : AdmissionEffect}
    {out : Outcome Admission} {clock : ℕ} {wrap : Admission → Task}
    (h : Fires onError isRateLimited dto phase c effect out) (he : onError.tasks wrap = [])
    (hwrap : ∀ a, (wrap a).tickets f answers = [f a.dto.path a.dto.queryId]) :
    ((effect.tasks clock ++ out.tasks wrap).flatMap (Task.tickets f answers)).Subperm
      [f dto.path dto.queryId] := by
  cases h with
  | fails => simp [AdmissionEffect.tasks, he]
  | answers => simp [AdmissionEffect.tasks, hwrap]
  | queues => simp [AdmissionEffect.tasks, Task.tickets]
  | emits => simp [AdmissionEffect.tasks, fetchMessages, Task.tickets]

/-- **A reaction multiplies no ticket.** -/
theorem Reacts.tickets_subperm (hok : t.Asserts s.db) (h : Reacts cfg s t c s' ts) :
    (ts.flatMap (Task.tickets f answers)).Subperm (t.tickets f answers) := by
  cases h with
  | creation h => exact Creation.tickets_subperm hok h
  | scheduler h => exact h.tickets_subperm rfl fun _ => rfl
  | processor h => exact h.tickets_subperm rfl fun _ => rfl
  | scheduleFetch payload =>
    -- An event that passes its validation has a path; one that does not is dropped.
    obtain ⟨_ | id, _ | path, queryId⟩ := payload
    · exact List.nil_subperm
    · exact List.nil_subperm
    · exact List.nil_subperm
    · exact .refl _
  | job j hdue => exact .refl _
  | fetchToConnector dto => exact .refl _
  | fetchToTraffic dto => exact .refl _
  | usageLogger hfresh h =>
    rw [Outcome.flatMap_tasks fun _ => rfl]
    exact List.nil_subperm
  | @connector u c effect out h =>
    obtain ⟨dto, phase⟩ := u
    cases h <;> cases answers <;> simp [Task.tickets, receiveMessages]
  | receiveToQueryManager => cases answers <;> simp [Task.tickets]
  | refusedToQueryManager => exact List.nil_subperm
  | refusedToCacheManager => exact List.nil_subperm
  | receiveToCacheManager =>
    rw [Outcome.flatMap_tasks fun _ => rfl]
    exact List.nil_subperm
  | @handler t c e h =>
    rw [Effect.tasks, Handler.emitted_of_fires h, List.map_nil, List.nil_append]
    cases hout : e.outcome with
    | suspended t' =>
      have hdto : t'.dto = t.dto := (Handler.suspended_of_fires hok.2 h hout).1
      cases answers <;> simp [Task.tickets, hdto]
    | resolved => exact List.nil_subperm
    | rejected => exact List.nil_subperm
  | updater h =>
    rw [Outcome.flatMap_tasks fun _ => rfl]
    exact List.nil_subperm

/-- **Only the connector issues GETs**, one for the path of its event, after which its
ticket is spent. -/
theorem Reacts.gets_covered (h : Reacts cfg s t c s' ts) :
    s'.gets = s.gets ∨ ∃ dto, t = .connector ⟨dto, .get⟩ ∧
      s'.gets.map HttpGet.url
        = s.gets.map HttpGet.url ++ [resourceUrl cfg.swapiBaseUrl dto.path] ∧
      ts.flatMap (Task.tickets f false) = [] := by
  cases h with
  | @connector u c effect out h =>
    obtain ⟨dto, phase⟩ := u
    cases h with
    | unavailable => exact .inr ⟨dto, rfl, by simp, rfl⟩
    | fetched data => exact .inr ⟨dto, rfl, by simp, rfl⟩
    | _ => exact .inl (List.append_nil _)
  | _ => exact .inl rfl

/-- **Only the last segment of a handler posts**, once at most, and for the query of its
event. -/
theorem Reacts.posts_covered (hok : t.Asserts s.db) (h : Reacts cfg s t c s' ts) :
    s'.posts = s.posts ∨ ∃ u, t = .handler u ∧ ts = [] ∧
      (s'.posts.map fun p => p.body.id).Subperm
        ((s.posts.map fun p => p.body.id) ++ [.uuid u.dto.queryId]) := by
  cases h with
  | @creation t c e h =>
    left
    have hposts : e.posts = [] := by
      generalize t.phase = phase at h
      cases h <;> rfl
    rw [Effect.store, hposts, List.append_nil]
  | @handler t c e h =>
    obtain ⟨dto, phase⟩ := t
    obtain ⟨-, hok⟩ := hok
    cases h with
    | savedSubquery subquery updated latest db' hsave =>
      obtain ⟨-, -, ⟨hid, -⟩, hlatest⟩ := hok
      refine .inr ⟨_, rfl, rfl, ?_⟩
      rw [Effect.store, List.map_append]
      refine (List.Subperm.refl _).append ?_
      unfold notifications
      split
      · split_ifs with hurl
        · simp [hlatest, hid]
        · exact List.nil_subperm
      · exact List.nil_subperm
    | _ => exact .inl (List.append_nil _)
  | _ => exact .inl rfl

end Results

/-- A new request starts with the tickets issued for it. -/
theorem Acts.tickets {β : Type} (f : String → Uuid → β) (answers : Bool) {s s' : Store}
    {e : EnvAct} {ts : List Task} (h : Acts s e s' ts) :
    s'.gets = s.gets ∧ s'.posts = s.posts ∧ s'.created = s.created ∧
      ts.flatMap (Task.tickets f answers)
        = e.request.flatMap fun r => r.1.subqueries.dedup.map (f · r.2) := by
  cases h with
  | create dto ids queryId hlen =>
    refine ⟨rfl, rfl, rfl, ?_⟩
    rw [EnvAct.request, List.flatMap_singleton, List.flatMap_singleton, Task.tickets,
      requested_start hlen]
    rfl
  | _ => exact ⟨rfl, rfl, rfl, rfl⟩

/-! ### Covered by requests -/

/-- What the tasks of the pool assert, and own. -/
def Task.Sound (s : Store) (t : Task) : Prop := t.Asserts s.db ∧ t.owned.Nodup

section Runs

variable {cfg : Settings} {cache : ResourceCollection} {tr : List (Sys × Act Choice EnvAct)}
  {s : Sys}

theorem taskSound_of_run (h : Run (system cfg).step (startingWith cache) tr s) :
    ∀ t ∈ s.pool, t.Sound s.store := by
  intro t ht
  have hI : (discipline cfg).Inv s := Discipline.inv_of_run h (inv_startingWith cfg cache)
  exact ⟨(hI.ok t ht).2, hI.nodup_owned ht⟩

/-- The tickets for GETs. -/
def getTickets (cfg : Settings) : Tickets (system cfg) Task.Sound String where
  carried := Task.tickets (fun path _ => resourceUrl cfg.swapiBaseUrl path) false
  spent s := s.gets.map HttpGet.url
  issued e := e.request.flatMap fun r => r.1.subqueries.dedup.map (resourceUrl cfg.swapiBaseUrl)
  react hok hreact := by
    have h := reacts_of_react hreact
    rcases h.gets_covered (f := fun path _ => resourceUrl cfg.swapiBaseUrl path) with
      hsame | ⟨dto, rfl, hgets, hts⟩
    · rw [hsame]
      exact (List.Subperm.refl _).append (h.tickets_subperm hok.1)
    · rw [hgets, hts, List.append_nil]
      exact .refl _
  env henv := by
    obtain ⟨hgets, -, -, hts⟩ := (acts_of_environment henv).tickets
      (fun path _ => resourceUrl cfg.swapiBaseUrl path) false
    rw [hgets, hts]

/-- The tickets for POSTs. -/
def postTickets (cfg : Settings) : Tickets (system cfg) Task.Sound ResponseId where
  carried := Task.tickets (fun _ queryId => .uuid queryId) true
  spent s := s.posts.map fun p => p.body.id
  issued e := e.request.flatMap fun r => r.1.subqueries.dedup.map fun _ => .uuid r.2
  react hok hreact := by
    have h := reacts_of_react hreact
    rcases h.posts_covered hok.1 with hsame | ⟨u, rfl, rfl, hposts⟩
    · rw [hsame]
      exact (List.Subperm.refl _).append (h.tickets_subperm hok.1)
    · rw [List.flatMap_nil, List.append_nil]
      exact hposts
  env henv := by
    obtain ⟨-, hposts, -, hts⟩ := (acts_of_environment henv).tickets
      (fun _ queryId => ResponseId.uuid queryId) true
    rw [hposts, hts]

/-- **GETs are covered by requests.**  In every run, the URLs of all GETs issued, the
failed ones included, are among those of the requested paths, each request counting
every path it names once: no path is fetched more often than there are requests that
name it. -/
theorem gets_covered_by_requests (h : Run (system cfg).step (startingWith cache) tr s) :
    (s.store.gets.map HttpGet.url).Subperm
      ((requestsIn tr).flatMap fun r =>
        r.1.subqueries.dedup.map (resourceUrl cfg.swapiBaseUrl)) := by
  have hall := (getTickets cfg).subperm_of_run taskSound_of_run h
  have hissued := issuedIn_request
    (fun r => r.1.subqueries.dedup.map (resourceUrl cfg.swapiBaseUrl)) tr
  rw [← hissued]
  exact (List.sublist_append_left _ _).subperm.trans hall

/-- A request for one path, and the GET it pays for. -/
theorem gets_covered_by_requests_firstResult :
    ∃ (tr : List (Sys × Act Choice EnvAct)) (s : Sys),
      s.store.gets.map HttpGet.url = ["http://swapi/people/1"] ∧
      (s.store.gets.map HttpGet.url).Subperm
        ((requestsIn tr).flatMap fun r =>
          r.1.subqueries.dedup.map (resourceUrl "http://swapi")) := by
  have hexec : (exec (system ⟨1, "http://swapi", some⟩).step (startingWith .empty) firstResult).any
      (fun s => s.store.gets.map HttpGet.url = ["http://swapi/people/1"]) = true := by
    decide +kernel
  obtain ⟨tr, s, hs, -, hp⟩ := exists_run_of_exec _ hexec
  exact ⟨tr, s, of_decide_eq_true hp, gets_covered_by_requests hs⟩

/-- **POSTs are covered by requests.**  In every run, a query is notified no more often
than its request names distinct paths. -/
theorem posts_covered_by_requests (h : Run (system cfg).step (startingWith cache) tr s) :
    (s.store.posts.map fun p => p.body.id).Subperm
      ((requestsIn tr).flatMap fun r => r.1.subqueries.dedup.map fun _ => .uuid r.2) := by
  have hall := (postTickets cfg).subperm_of_run taskSound_of_run h
  have hissued := issuedIn_request
    (fun r => r.1.subqueries.dedup.map fun _ => ResponseId.uuid r.2) tr
  rw [← hissued]
  exact (List.sublist_append_left _ _).subperm.trans hall

/-- The same request, and the POST it pays for. -/
theorem posts_covered_by_requests_firstSave :
    ∃ (tr : List (Sys × Act Choice EnvAct)) (s : Sys),
      (s.store.posts.map fun p => p.body.id) = [.uuid ⟨1⟩] ∧
      (s.store.posts.map fun p => p.body.id).Subperm
        ((requestsIn tr).flatMap fun r => r.1.subqueries.dedup.map fun _ => .uuid r.2) := by
  have hexec : (exec (system ⟨1, "http://swapi", some⟩).step (startingWith .empty)
      (firstResult ++ firstSave)).any
      (fun s => (s.store.posts.map fun p => p.body.id) = [.uuid ⟨1⟩]) = true := by
    decide +kernel
  obtain ⟨tr, s, hs, -, hp⟩ := exists_run_of_exec _ hexec
  exact ⟨tr, s, of_decide_eq_true hp, posts_covered_by_requests hs⟩

end Runs

/-! ### Responses -/

/-- The request a response answers: its paths, in order, and its callback. -/
def QueryDto.request (r : QueryDto) : CreateQueryRequestDto :=
  ⟨r.subqueries.map SubqueryDto.path, r.callbackUrl⟩

/-- The request a creation is about. -/
def Task.request : Task → List CreateQueryRequestDto
  | .creation t => [⟨t.requested, t.query.callbackUrl⟩]
  | _ => []

/-- The database refuses what a creation is about to save. -/
def Creation.refused (t : Creation) : Bool :=
  match t.phase with
  | .readCache _ => false
  | .saveQuery => !t.query.callbackUrl.all storable
  | .saveSubqueries => !t.query.subqueries.all fun e => storable e.path

/-- A creation one of whose calls fails, or is refused. -/
def Task.abandoned : Task → Choice → Bool
  | .creation t, c => c = .fail || t.refused
  | _, _ => false

section Responses

variable {cfg : Settings} {s s' : Store} {t : Task} {c : Choice} {ts : List Task}

/-- Only the environment starts creations. -/
theorem Reacts.request_eq_nil (h : Reacts cfg s t c s' ts) (ht : ∀ u, t ≠ .creation u) :
    ts.flatMap Task.request = [] := by
  rw [List.flatMap_eq_nil_iff]
  cases h with
  | creation h => exact absurd rfl (ht _)
  | handler h => exact Effect.forall_tasks (fun _ _ => rfl) fun _ _ => rfl
  | scheduleFetch payload => exact SubqueryPayload.forall_tasks fun _ => rfl
  | scheduler h => exact h.forall_tasks rfl (fun _ => rfl) rfl rfl rfl
  | processor h => exact h.forall_tasks rfl (fun _ => rfl) rfl rfl rfl
  | usageLogger hfresh h => exact Outcome.forall_tasks fun _ _ => rfl
  | @connector u c effect out h =>
    obtain ⟨dto, phase⟩ := u
    cases h <;> simp [receiveMessages, Task.request]
  | receiveToCacheManager dto => exact Outcome.forall_tasks fun _ _ => rfl
  | updater h => exact Outcome.forall_tasks fun _ _ => rfl
  | _ => simp [Task.request]

/-- **A creation answers its request once, unless a call of it fails or is refused.** -/
theorem Creation.answers_request {cache : ResourceCollection} {t : Creation} {e : Effect Creation}
    (ht : (Task.creation t).Sound s) (h : Fires s.db cache t.query t.phase c e) :
    (e.responses.map QueryDto.request ++ (e.tasks Task.creation).flatMap Task.request).Subperm
        (Task.creation t).request ∧
      ((Task.creation t).abandoned c = false →
        (e.responses.map QueryDto.request ++ (e.tasks Task.creation).flatMap Task.request).Perm
          (Task.creation t).request) := by
  obtain ⟨hok, hnd⟩ := ht
  obtain ⟨query, phase⟩ := t
  have hemitted : (e.emitted.map Task.scheduleFetch).flatMap Task.request = [] := by
    simp [List.flatMap_map, Task.request]
  rw [Effect.tasks, List.flatMap_append, hemitted, List.nil_append]
  cases h with
  | rejects => exact ⟨List.nil_subperm, fun hno => by cases hno⟩
  | refusedQuery hurl =>
    refine ⟨List.nil_subperm, fun hno => ?_⟩
    simp [Task.abandoned, refused, hurl] at hno
  | unsaved hsave =>
    refine ⟨List.nil_subperm, fun hno => ?_⟩
    have hpaths : query.Storable := by
      simpa [Task.abandoned, refused, QueryEntity.Storable] using hno
    obtain ⟨db', hsave', -⟩ := Creation.Ok.saves hok hnd hpaths
    rw [hsave] at hsave'
    cases hsave'
  | hit reads newSubqueries hall htruthy =>
    have hpaths := congrArg (List.map Prod.snd)
      (map_listing_allReplies (hok.reads reads rfl).2 hall)
    rw [List.map_map] at hpaths
    have heq : QueryDto.request ⟨.blank, newSubqueries, query.callbackUrl, .COMPLETED⟩
        = ⟨(⟨query, .readCache reads⟩ : Creation).requested, query.callbackUrl⟩ :=
      congrArg (CreateQueryRequestDto.mk · query.callbackUrl) hpaths
    simp only [List.map_cons, heq]
    exact ⟨.refl _, fun _ => .refl _⟩
  | savedSubqueries db' hsave =>
    have heq : (fetchQueryRequestResultsFromDataSource query).request
        = ⟨(⟨query, .saveSubqueries⟩ : Creation).requested, query.callbackUrl⟩ := by
      simp only [QueryDto.request, fetchQueryRequestResultsFromDataSource, Creation.requested,
        Creation.listing, List.map_map]
      rfl
    simp only [List.map_cons, heq]
    exact ⟨.refl _, fun _ => .refl _⟩
  | reads reads reads' j hans =>
    obtain ⟨hlisting, -, -⟩ := listing_of_fires hok (.reads reads reads' j hans) rfl
    simp only [Outcome.tasks_suspended, List.flatMap_singleton, Task.request, requested, hlisting]
    exact ⟨.refl _, fun _ => .refl _⟩
  | miss reads newSubqueries hall hmiss =>
    have hfires : Fires s.db cache query (.readCache reads) .proceed _ :=
      .miss reads newSubqueries hall hmiss
    obtain ⟨hlisting, -, -⟩ := listing_of_fires hok hfires rfl
    simp only [Outcome.tasks_suspended, List.flatMap_singleton, Task.request, requested, hlisting]
    exact ⟨.refl _, fun _ => .refl _⟩
  | savedQuery => exact ⟨.refl _, fun _ => .refl _⟩

/-- The same, for every reaction. -/
theorem Reacts.answers_request (ht : t.Sound s) (h : Reacts cfg s t c s' ts) :
    (s'.created.map QueryDto.request ++ ts.flatMap Task.request).Subperm
        (s.created.map QueryDto.request ++ t.request) ∧
      (t.abandoned c = false → (s'.created.map QueryDto.request ++ ts.flatMap Task.request).Perm
        (s.created.map QueryDto.request ++ t.request)) := by
  by_cases hcreation : ∃ u, t = .creation u
  · obtain ⟨u, rfl⟩ := hcreation
    obtain ⟨e, hfires, rfl, rfl⟩ := h.of_creation
    obtain ⟨hsub, hperm⟩ := Creation.answers_request ht hfires
    rw [Effect.store, List.map_append, List.append_assoc]
    refine ⟨(List.Subperm.refl _).append hsub, fun hno => ?_⟩
    exact (hperm hno).append_left _
  · have hno : ∀ u, t ≠ .creation u := fun u hu => hcreation ⟨u, hu⟩
    have hnone : t.request = [] := by
      cases t with
      | creation u => exact absurd rfl (hno u)
      | _ => rfl
    rw [h.created_eq hno, h.request_eq_nil hno, hnone]
    exact ⟨.refl _, fun _ => .refl _⟩

end Responses

/-- The tickets for responses. -/
def responseTickets (cfg : Settings) : Tickets (system cfg) Task.Sound CreateQueryRequestDto where
  carried := Task.request
  spent s := s.created.map QueryDto.request
  issued e := e.request.flatMap fun r => [r.1]
  react hok hreact := ((reacts_of_react hreact).answers_request hok).1
  env henv := by
    cases acts_of_environment henv with
    | create dto ids queryId hlen =>
      rw [List.flatMap_singleton, Task.request, requested_start hlen]
      exact .refl _
    | _ => exact .refl _

/-- **Responses answer requests.**  In every run, the responses, by the paths they list
in order and their callbacks, are among the requests, each request answered once at
most; and once no creation is running, all requests are answered, if no creation had a
call fail, or be refused. -/
theorem responses_answer_requests (cfg : Settings) (cache : ResourceCollection)
    {tr : List (Sys × Act Choice EnvAct)} {s : Sys}
    (h : Run (system cfg).step (startingWith cache) tr s) :
    (s.store.created.map QueryDto.request).Subperm ((requestsIn tr).map Prod.fst) ∧
      ((∀ p ∈ tr, ∀ i c t, p.2 = .run i c → p.1.pool[i]? = some t → t.abandoned c = false) →
        (∀ t ∈ s.pool, ∀ u, t ≠ .creation u) →
        (s.store.created.map QueryDto.request).Perm ((requestsIn tr).map Prod.fst)) := by
  have hissued : issuedIn (responseTickets cfg).issued tr = (requestsIn tr).map Prod.fst := by
    rw [List.map_eq_flatMap]
    exact issuedIn_request (fun r => [r.1]) tr
  constructor
  · have hall := (responseTickets cfg).subperm_of_run taskSound_of_run h
    rw [hissued] at hall
    exact (List.sublist_append_left _ _).subperm.trans hall
  · intro hC hpool
    have hall := (responseTickets cfg).perm_of_run (C := fun _ t c => t.abandoned c = false)
      (fun hok hC hreact => ((reacts_of_react hreact).answers_request hok).2 hC)
      taskSound_of_run h hC
    have hnone : s.pool.flatMap Task.request = [] := by
      rw [List.flatMap_eq_nil_iff]
      intro t ht
      cases t with
      | creation u => exact absurd rfl (hpool _ ht u)
      | _ => rfl
    have hend : (responseTickets cfg).all s = s.store.created.map QueryDto.request := by
      show _ ++ s.pool.flatMap Task.request = _
      rw [hnone]
      exact List.append_nil _
    rw [hissued, hend] at hall
    exact hall

/-- No call of the first request fails, and it is answered. -/
theorem responses_answer_requests_firstResult :
    ∃ (tr : List (Sys × Act Choice EnvAct)) (s : Sys),
      (requestsIn tr).map Prod.fst = [⟨["people/1"], some "http://localhost:3000"⟩] ∧
      (s.store.created.map QueryDto.request).Perm ((requestsIn tr).map Prod.fst) := by
  have hexec : (execTrace (system ⟨1, "http://swapi", some⟩).step (startingWith .empty)
      firstResult).any (fun r => (r.2.pool.all fun t => t.request.isEmpty) &&
        (reactions r.1).all fun r => !r.task.abandoned r.choice) = true := by
    decide +kernel
  obtain ⟨tr, s, hs, hacts, hp⟩ := exists_run_of_execTrace _ hexec
  obtain ⟨hpool, htrace⟩ := Bool.and_eq_true_iff.mp hp
  obtain ⟨-, hperm⟩ := responses_answer_requests _ _ hs
  refine ⟨tr, s, by rw [requestsIn_of_map hacts]; rfl, hperm (fun p hp' i c t hc ht => ?_)
    fun t ht u hu => ?_⟩
  · have hno := List.all_eq_true.mp htrace _ (mem_reactions hp' hc ht)
    simpa using hno
  · rw [hu] at ht
    simpa [Task.request] using List.all_eq_true.mp hpool _ ht

end SwapiService
