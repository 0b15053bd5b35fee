import SwapiService.LostWork

/-!
# Handling results, whoever sends them

The handlers of the query manager and the cache updates on their own, over any
database and any cache, and for any number of `RECEIVE` events in any order: an event
may come twice, and may reach the one service and not the other.  All that is asked
of an event is that it names a subquery of the query it names.

A handler reads its query, reads the cache, decides, and saves the whole query.  A
status that another handler has saved meanwhile is overwritten with a decision taken
on older replies.

## Main definitions

* `ResultTask`, `Delivery`, `resultHandling` — the machine.
* `Database.Completed` — the stored status of a query is `COMPLETED`.
* `KeepsCompleted` — a handler that finds its query completed completes it again.

## Main results

* `status_monotone_iff` — the exact condition, for every run.
* `status_reverts` — two handlers, one with old replies.
-/

namespace SwapiService

open TaskPool Transition

instance (db : Database) (dto : SubqueryDto) : Decidable (Refers db dto) :=
  decidable_of_iff ((db.subqueries.lookup dto.id).any (fun row =>
    row.path = dto.path ∧ row.queryId = dto.queryId ∧ dto.queryId ∈ db.queries) = true) (by
      rw [Refers, Option.any_eq_true]
      simp)

/-! ### The machine -/

/-- The databases the handlers share. -/
structure ResultStore where
  db : Database
  cache : ResourceCollection

/-- An activation of one of the two handlers of a `RECEIVE` event. -/
inductive ResultTask
  | handler (t : Handler)
  | updater (u : CacheUpdate)
  deriving DecidableEq, Repr

/-- A `RECEIVE` event reaches the query manager, or the cache manager. -/
inductive Delivery
  | toQueryManager (dto : SubqueryDto)
  | toCacheManager (dto : SubqueryDto)
  deriving DecidableEq, Repr

/-- One segment of a handler. -/
def resultReact (s : ResultStore) : ResultTask → Choice → Option (ResultStore × List ResultTask)
  | .handler t, c => (t.step s.db s.cache c).map fun e =>
      ({ s with db := e.db }, e.outcome.tasks .handler)
  | .updater u, c => (u.step s.cache c).map fun r => ({ s with cache := r.1 }, r.2.tasks .updater)

/-- An event arrives. -/
def deliver (s : ResultStore) : Delivery → Option (ResultStore × List ResultTask)
  | .toQueryManager dto =>
      if Refers s.db dto then some (s, [.handler ⟨dto, .findSubquery⟩]) else none
  | .toCacheManager dto => some (s, (updateCache dto).tasks .updater)

/-- The handlers of `RECEIVE` events. -/
def resultHandling : Machine ResultStore ResultTask Choice Delivery := ⟨resultReact, deliver⟩

/-- What a task asserts about the database. -/
def ResultTask.Ok (s : ResultStore) : ResultTask → Prop
  | .handler t => t.Ok s.db
  | .updater _ => True

/-- The segments, case by case. -/
theorem resultReact_cases {s s' : ResultStore} {t : ResultTask} {c : Choice}
    {ts : List ResultTask} (h : resultReact s t c = some (s', ts)) :
    (∃ u e, t = .handler u ∧ Handler.Fires s.db s.cache u.dto u.phase c e ∧ s'.db = e.db ∧
        ts = e.outcome.tasks .handler) ∨
      ∃ u out, t = .updater u ∧ s'.db = s.db ∧ ts = Outcome.tasks .updater out := by
  cases t with
  | handler u =>
    obtain ⟨e, he, h⟩ := Option.map_eq_some_iff.mp h
    cases h
    exact .inl ⟨u, e, rfl, Handler.fires_of_step he, rfl, rfl⟩
  | updater u =>
    obtain ⟨r, -, h⟩ := Option.map_eq_some_iff.mp h
    cases h
    exact .inr ⟨u, r.2, rfl, rfl, rfl⟩

theorem deliver_cases {s s' : ResultStore} {d : Delivery} {ts : List ResultTask}
    (h : deliver s d = some (s', ts)) :
    s' = s ∧ ((∃ dto, Refers s.db dto ∧ ts = [.handler ⟨dto, .findSubquery⟩]) ∨
      ∃ dto, ts = (updateCache dto).tasks .updater) := by
  cases d with
  | toQueryManager dto =>
    simp only [deliver] at h
    split_ifs at h with href
    cases h
    exact ⟨rfl, .inl ⟨dto, href, rfl⟩⟩
  | toCacheManager dto =>
    cases h
    exact ⟨rfl, .inr ⟨dto, rfl⟩⟩

/-- A segment stays within a frame. -/
theorem frame_of_resultReact {s s' : ResultStore} {t : ResultTask} {c : Choice}
    {ts : List ResultTask} (hok : t.Ok s) (h : resultReact s t c = some (s', ts)) :
    ∃ ids, Database.Frame ids s.db s'.db := by
  rcases resultReact_cases h with ⟨u, e, rfl, hfires, hdb, -⟩ | ⟨u, out, rfl, hdb, -⟩
  · exact ⟨_, hdb ▸ Handler.frame_of_fires hok hfires⟩
  · exact ⟨[], hdb ▸ .refl _ _⟩

theorem ResultTask.Ok.frame {s s' : ResultStore} {ids : List Uuid} {t : ResultTask} (h : t.Ok s)
    (hf : Database.Frame ids s.db s'.db) : t.Ok s' := by
  cases t with
  | handler u => exact Handler.Ok.frame h hf
  | updater u => trivial

theorem ResultTask.ok_updater (s : ResultStore) (out : Outcome CacheUpdate) :
    ∀ u ∈ out.tasks ResultTask.updater, u.Ok s :=
  Outcome.forall_tasks fun _ _ => trivial

/-- The discipline of the handlers.  Here nobody owns a row: the assertions survive
any segment. -/
def resultDiscipline : Discipline resultHandling Uuid where
  owned _ := []
  used _ _ := False
  Good _ := True
  Ok := ResultTask.Ok
  ok_used _ hk := nomatch hk
  react_good _ _ _ _ := trivial
  react_ok := by
    intro s t c s' ts _ hok _ hreact u hu
    rcases resultReact_cases hreact with ⟨v, e, rfl, hfires, hdb, rfl⟩ | ⟨v, out, rfl, -, rfl⟩
    · refine Outcome.forall_tasks (fun v' hout => ?_) u hu
      show v'.Ok s'.db
      rw [hdb]
      exact Handler.ok_of_fires hok hfires hout
    · exact ResultTask.ok_updater s' out u hu
  -- No keys, hence nothing to hand on.
  react_owned _ _ _ := by rw [List.flatMap_eq_nil_iff.mpr fun _ _ => rfl]; simp
  react_frame _ hok _ hreact hu _ := by
    obtain ⟨ids, hf⟩ := frame_of_resultReact hok hreact
    exact hu.frame hf
  env_good _ _ := trivial
  env_ok := by
    intro s d s' ts _ hdel u hu
    obtain ⟨rfl, ⟨dto, href, rfl⟩ | ⟨dto, rfl⟩⟩ := deliver_cases hdel
    · obtain rfl := List.mem_singleton.mp hu
      exact ⟨href, trivial⟩
    · exact ResultTask.ok_updater s' _ u hu
  env_owned _ := by rw [List.flatMap_eq_nil_iff.mpr fun _ _ => rfl]; simp
  env_frame _ hdel hu := by
    obtain ⟨rfl, -⟩ := deliver_cases hdel
    exact hu

/-! ### The status of a query -/

/-- The stored status of a query is `COMPLETED`. -/
def Database.Completed (db : Database) (queryId : Uuid) : Prop :=
  ∃ row, db.queries.lookup queryId = some row ∧ row.status = .COMPLETED

/-- The handler is about to save the query. -/
def Handler.Saves (queryId : Uuid) (t : Handler) : Prop :=
  match t.phase with
  | .saveQuery _ _ _ => t.dto.queryId = queryId
  | _ => False

theorem Handler.FindsAll.saves {queryId : Uuid} {t : Handler} (h : t.FindsAll)
    (hq : t.dto.queryId = queryId) : t.Saves queryId := by
  obtain ⟨dto, phase⟩ := t
  cases phase with
  | saveQuery subquery query cached => exact hq
  | _ => exact h

theorem Handler.Saves.queryId_eq {queryId : Uuid} {t : Handler} (h : t.Saves queryId) :
    t.dto.queryId = queryId := by
  obtain ⟨dto, phase⟩ := t
  cases phase with
  | saveQuery subquery query cached => exact h
  | _ => exact absurd h id

/-- If the handler is about to save a query that is completed, it holds all results. -/
def Handler.KeepsCompleted (db : Database) (t : Handler) : Prop :=
  ∀ queryId, t.Saves queryId → db.Completed queryId → t.FindsAll

/-- The action lets no other handler save its query. -/
def KeepsCompleted (s : Config ResultStore ResultTask) : Act Choice Delivery → Prop
  | .run i .proceed =>
      ∀ t : Handler, s.pool[i]? = some (.handler t) → t.KeepsCompleted s.store.db
  | _ => True

theorem Database.Completed.congr {db db' : Database} {queryId : Uuid}
    (h : db'.queries.lookup queryId = db.queries.lookup queryId) :
    db'.Completed queryId ↔ db.Completed queryId := by
  rw [Completed, Completed, h]

/-- **What a segment of a handler does to the status of a query**: if it saves it, the
status says whether the handler holds all results; otherwise the status is left alone. -/
theorem Handler.completed_of_fires {db : Database} {cache : ResourceCollection}
    {dto : SubqueryDto} {phase : HandlerPhase} {c : Choice} {e : Effect Handler}
    (hok : (⟨dto, phase⟩ : Handler).Ok db) (h : Fires db cache dto phase c e) (queryId : Uuid) :
    (c = .proceed ∧ (⟨dto, phase⟩ : Handler).Saves queryId →
      (e.db.Completed queryId ↔ (⟨dto, phase⟩ : Handler).FindsAll)) ∧
      (¬ (c = .proceed ∧ (⟨dto, phase⟩ : Handler).Saves queryId) →
        (e.db.Completed queryId ↔ db.Completed queryId)) := by
  cases h with
  | savedQuery subquery query cached =>
    obtain ⟨-, -, ⟨hid, -⟩, hown⟩ := hok
    have hcompleted : (updatedQuery dto query cached).status = .COMPLETED ↔ _ :=
      status_updatedQuery_iff hown
    have hqid : (updatedQuery dto query cached).id = dto.queryId := hid
    constructor
    · -- The whole row is written, whatever its status was.
      rintro ⟨-, hsaves⟩
      have hlookup := Database.lookup_saveQuery db (updatedQuery dto query cached)
      rw [hqid, show dto.queryId = queryId from hsaves] at hlookup
      refine Iff.trans ?_ hcompleted
      constructor
      · rintro ⟨row, hrow, hstatus⟩
        rw [hlookup] at hrow
        obtain rfl := Option.some.inj hrow
        exact hstatus
      · exact fun hstatus => ⟨_, hlookup, hstatus⟩
    · intro hno
      refine Database.Completed.congr (Database.lookup_saveQuery_ne db ?_)
      rw [hqid]
      exact fun hq => hno ⟨rfl, hq.symm⟩
  | savedSubquery subquery updated latest db' hsave =>
    refine ⟨fun hall => absurd hall.2 id, fun _ => Database.Completed.congr ?_⟩
    exact congrArg (AList.lookup queryId) (Database.queries_saveSubquery hsave)
  | rejects => exact ⟨(fun hall => nomatch hall.1), fun _ => Iff.rfl⟩
  | _ => exact ⟨fun hall => absurd hall.2 id, fun _ => Iff.rfl⟩

/-- Completed queries stay completed in a segment of a handler just in case it keeps
its own so. -/
theorem Handler.keepsCompleted_of_fires {db : Database} {cache : ResourceCollection}
    {dto : SubqueryDto} {phase : HandlerPhase} {c : Choice} {e : Effect Handler}
    (hok : (⟨dto, phase⟩ : Handler).Ok db) (h : Fires db cache dto phase c e) :
    (∀ queryId, db.Completed queryId → e.db.Completed queryId) ↔
      (c = .proceed → (⟨dto, phase⟩ : Handler).KeepsCompleted db) := by
  constructor
  · intro hall hc queryId hsaves hstored
    exact ((completed_of_fires hok h queryId).1 ⟨hc, hsaves⟩).mp (hall queryId hstored)
  · intro hkeeps queryId hstored
    by_cases hsaves : c = .proceed ∧ (⟨dto, phase⟩ : Handler).Saves queryId
    · exact ((completed_of_fires hok h queryId).1 hsaves).mpr
        (hkeeps hsaves.1 queryId hsaves.2 hstored)
    · exact ((completed_of_fires hok h queryId).2 hsaves).mpr hstored

/-- Completed queries stay completed in a step just in case it keeps them so. -/
theorem completed_step {s s' : Config ResultStore ResultTask} {a : Act Choice Delivery}
    (hI : resultDiscipline.Inv s) (hs : resultHandling.step s a = some s') :
    (∀ queryId, s.store.db.Completed queryId → s'.store.db.Completed queryId) ↔
      KeepsCompleted s a := by
  rcases Machine.step_cases hs with ⟨i, c, t, rest, ts, rfl, hr⟩ | ⟨d, ts, rfl, hdel, -⟩
  · have hok : t.Ok s.store := hI.ok t hr.mem
    rcases resultReact_cases hr.react with ⟨u, e, rfl, hfires, hdb, -⟩ | ⟨u, out, rfl, hdb, -⟩
    · rw [hdb, Handler.keepsCompleted_of_fires hok hfires]
      cases c with
      | proceed => simp [KeepsCompleted, hr.get]
      | _ => simp [KeepsCompleted]
    · -- A cache update writes no status.
      rw [hdb]
      refine iff_of_true (fun _ hstored => hstored) ?_
      cases c with
      | proceed => simp [KeepsCompleted, hr.get]
      | _ => trivial
  · obtain ⟨hsame, -⟩ := deliver_cases hdel
    rw [hsame]
    exact iff_of_true (fun _ hstored => hstored) trivial

/-- **When the status is monotone.**  Whatever the database and the cache to start
with, along every run a completed query stays completed for ever just in case every
handler that finds its query completed when it saves it holds all results. -/
theorem status_monotone_iff (db : Database) (cache : ResourceCollection)
    {tr : List (Config ResultStore ResultTask × Act Choice Delivery)}
    {s : Config ResultStore ResultTask} (h : Run resultHandling.step ⟨⟨db, cache⟩, []⟩ tr s) :
    (visited tr s).Pairwise (fun t t' =>
      ∀ queryId, t.store.db.Completed queryId → t'.store.db.Completed queryId) ↔
        ∀ p ∈ tr, KeepsCompleted p.1 p.2 := by
  have hinv : ∀ {tr t}, Run resultHandling.step ⟨⟨db, cache⟩, []⟩ tr t →
      resultDiscipline.Inv t := fun hrun =>
    resultDiscipline.inv_of_run hrun ⟨trivial, (fun u hu => nomatch hu), List.nodup_nil⟩
  exact h.pairwise_visited_iff hinv (fun h₁ h₂ queryId hq => h₂ queryId (h₁ queryId hq))
    fun hI hs => completed_step hI hs

/-- A pending query with two subqueries. -/
def twoSubqueries : Database :=
  { queries := (∅ : AList fun _ : Uuid => QueryRow).insert ⟨2⟩ ⟨none, .PENDING⟩
    subqueries := ((∅ : AList fun _ : Uuid => SubqueryRow).insert ⟨1⟩
      ⟨"planets/1", ⟨2⟩, .null⟩).insert ⟨0⟩ ⟨"people/1", ⟨2⟩, .null⟩ }

/-- Both results arrive.  The first handler reads the cache before anything is there;
by the time the second one reads it, the first result is cached, and its status is
saved first. -/
def oldReplies : List (Act Choice Delivery) :=
  [.env (.toQueryManager ⟨⟨0⟩, "people/1", ⟨2⟩, .structured "\x7b\x7d"⟩), .run 0 .proceed,
    .run 0 .proceed, .run 0 (.read 0), .run 0 (.read 1), .run 0 .proceed,
    .env (.toCacheManager ⟨⟨0⟩, "people/1", ⟨2⟩, .structured "\x7b\x7d"⟩), .run 1 .proceed,
    .run 1 .proceed,
    .env (.toQueryManager ⟨⟨1⟩, "planets/1", ⟨2⟩, .structured "\x7b\x7d"⟩), .run 1 .proceed,
    .run 1 .proceed, .run 1 (.read 0), .run 1 (.read 1), .run 1 .proceed, .run 1 .proceed]

/-- **A completed query becomes pending again.** -/
theorem status_reverts :
    ∃ s s', Reachable resultHandling.step ⟨⟨twoSubqueries, .empty⟩, []⟩ s ∧
      Reachable resultHandling.step s s' ∧ s.store.db.Completed ⟨2⟩ ∧
      ¬ s'.store.db.Completed ⟨2⟩ := by
  have hfirst : (exec resultHandling.step ⟨⟨twoSubqueries, .empty⟩, []⟩ oldReplies).any (fun s =>
      s.store.db.queries.lookup ⟨2⟩ = some ⟨none, .COMPLETED⟩ ∧
        (exec resultHandling.step s [.run 0 .proceed]).any (fun s' =>
          s'.store.db.queries.lookup ⟨2⟩ = some ⟨none, .PENDING⟩) = true) = true := by
    decide +kernel
  obtain ⟨s, hs, hp⟩ := exists_reachable_of_exec _ hfirst
  obtain ⟨hcompleted, hsecond⟩ := of_decide_eq_true hp
  obtain ⟨s', hs', hp'⟩ := exists_reachable_of_exec _ hsecond
  refine ⟨s, s', hs, hs', ⟨_, hcompleted, rfl⟩, ?_⟩
  rintro ⟨row, hrow, hstatus⟩
  rw [of_decide_eq_true hp', Option.some.injEq] at hrow
  rw [← hrow] at hstatus
  cases hstatus

theorem status_monotone_iff_oldReplies :
    ∃ tr s, Run resultHandling.step ⟨⟨twoSubqueries, .empty⟩, []⟩ tr s ∧
      tr.map Prod.snd = oldReplies ∧
      ((visited tr s).Pairwise (fun t t' =>
        ∀ queryId, t.store.db.Completed queryId → t'.store.db.Completed queryId) ↔
          ∀ p ∈ tr, KeepsCompleted p.1 p.2) := by
  have hexec : (exec resultHandling.step ⟨⟨twoSubqueries, .empty⟩, []⟩ oldReplies).any
      (fun s => s.pool ≠ []) = true := by decide +kernel
  obtain ⟨tr, s, hrun, htr, -⟩ := exists_run_of_exec _ hexec
  exact ⟨tr, s, hrun, htr, status_monotone_iff _ _ hrun⟩

end SwapiService
