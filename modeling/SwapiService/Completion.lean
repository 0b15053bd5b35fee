import SwapiService.Provenance

/-!
# What a completed query promises

The status of a query is computed from the cache, while polling returns what is
stored with its rows.  A handler that finds every path cached saves the status
first and its own row afterwards, and rows that nobody works on are never filled.
So a query marked completed is, at that moment, never complete.

## Main definitions

* `CompletedMeansComplete` — the rows of a completed query have results, and a
  poll shows it.
* `Handler.FindsAll`, `Completes` — a handler with all results saves its query.

## Main results

* `completedMeansComplete_iff` — the exact condition, for every run.
* `completed_without_result` — a run with a repeated path that ends, with nothing
  left in flight, in a completed query with a row that is `null` for ever.
-/

namespace SwapiService

open TaskPool Transition

/-- The rows of a completed query have results, and a poll that reports the query
completed shows them. -/
structure CompletedMeansComplete (db : Database) : Prop where
  row : ∀ queryId qrow, db.queries.lookup queryId = some qrow → qrow.status = .COMPLETED →
    ∀ id row, db.subqueries.lookup id = some row → row.queryId = queryId → row.result ≠ .null
  poll : ∀ queryId, (fetchQueryResultsAsync db queryId).status = .COMPLETED →
    ∀ d ∈ (fetchQueryResultsAsync db queryId).subqueries, d.result ≠ .null

/-- A poll shows the stored status. -/
theorem status_fetchQueryResultsAsync {db : Database} {queryId : Uuid}
    (h : (fetchQueryResultsAsync db queryId).status = .COMPLETED) :
    ∃ qrow, db.queries.lookup queryId = some qrow ∧ qrow.status = .COMPLETED := by
  unfold fetchQueryResultsAsync at h
  cases hfind : db.findQuery queryId with
  | none => simp [hfind] at h
  | some query =>
    obtain ⟨qrow, hqrow, rfl⟩ := Database.findQuery_eq_some.mp hfind
    exact ⟨qrow, hqrow, by simpa [hfind] using h⟩

/-- What polls show follows from what is stored. -/
theorem CompletedMeansComplete.of_row {db : Database}
    (h : ∀ queryId qrow, db.queries.lookup queryId = some qrow → qrow.status = .COMPLETED →
      ∀ id row, db.subqueries.lookup id = some row → row.queryId = queryId → row.result ≠ .null) :
    CompletedMeansComplete db := by
  refine ⟨h, fun queryId hstatus d hd => ?_⟩
  obtain ⟨qrow, hqrow, hcompleted⟩ := status_fetchQueryResultsAsync hstatus
  obtain ⟨-, -, hrow⟩ := mem_fetchQueryResultsAsync.mp hd
  exact h queryId qrow hqrow hcompleted d.id _ hrow rfl

/-! ### The handlers that complete a query -/

/-- About to save its query, a handler holds a truthy result for its own subquery,
and a truthy reply for every other one. -/
def Handler.FindsAll (t : Handler) : Prop :=
  match t.phase with
  | .saveQuery _ _ cached =>
      t.dto.result.truthy = true ∧ ∀ q ∈ cached, q.id ≠ t.dto.id → q.result.truthy = true
  | _ => False

/-- The action lets such a handler save its query. -/
def Completes (s : Sys) : Act Choice EnvAct → Prop
  | .run i .proceed => ∃ t : Handler, s.pool[i]? = some (.handler t) ∧ t.FindsAll
  | _ => False

/-- The status a handler computes, when its own subquery is among the replies. -/
theorem status_updatedQuery_iff {dto : SubqueryDto} {query : QueryEntity}
    {cached : List SubqueryDto} (hown : dto.id ∈ cached.map SubqueryDto.id) :
    (updatedQuery dto query cached).status = .COMPLETED ↔
      dto.result.truthy = true ∧ ∀ q ∈ cached, q.id ≠ dto.id → q.result.truthy = true := by
  have hall : haveAllResults (latestResponse dto query cached) = true ↔
      ∀ q ∈ cached, (if q.id = dto.id then dto else q).result.truthy = true := by
    simp [haveAllResults, latestResponse, List.all_eq_true]
  have hstatus : (updatedQuery dto query cached).status = .COMPLETED ↔
      haveAllResults (latestResponse dto query cached) = true := by
    unfold updatedQuery
    by_cases h : haveAllResults (latestResponse dto query cached) = true <;> simp [h]
  rw [hstatus, hall]
  constructor
  · intro h
    obtain ⟨q, hq, hid⟩ := List.mem_map.mp hown
    refine ⟨?_, fun q hq hne => ?_⟩
    · have hself := h q hq
      rwa [if_pos hid] at hself
    · have hother := h q hq
      rwa [if_neg hne] at hother
  · rintro ⟨hself, hothers⟩ q hq
    by_cases hid : q.id = dto.id
    · rw [if_pos hid]
      exact hself
    · rw [if_neg hid]
      exact hothers q hq hid

section Segments

variable {db : Database} {cache : ResourceCollection} {c : Choice}

/-- A creation adds queries that are pending, and rows to no completed query. -/
theorem Creation.complete_of_fires {query : QueryEntity} {phase : CreationPhase}
    {e : Effect Creation} (hok : (⟨query, phase⟩ : Creation).Ok db)
    (hnd : (⟨query, phase⟩ : Creation).owned.Nodup) (hdb : CompletedMeansComplete db)
    (h : Fires db cache query phase c e) : CompletedMeansComplete e.db := by
  cases h with
  | savedQuery =>
    refine .of_row fun queryId qrow hqrow hstatus id row hrow hq => ?_
    by_cases hid : queryId = query.id
    · subst hid
      have hpending : query.status = .PENDING := hok.status
      rw [Database.lookup_saveQuery] at hqrow
      obtain rfl := Option.some.inj hqrow
      rw [show query.status = .COMPLETED from hstatus] at hpending
      cases hpending
    · rw [Database.lookup_saveQuery_ne db hid] at hqrow
      exact hdb.row queryId qrow hqrow hstatus id row hrow hq
  | savedSubqueries db' hsave =>
    obtain ⟨hqueries, hother, hrows⟩ := hok.saved hnd hsave
    refine .of_row fun queryId qrow hqrow hstatus id row hrow hq => ?_
    have hqrow' : db.queries.lookup queryId = some qrow := hqueries ▸ hqrow
    by_cases hid : id ∈ query.subqueries.map SubqueryEntity.id
    · -- A new row belongs to the query just stored, which is pending.
      obtain ⟨q, hq', rfl⟩ := List.mem_map.mp hid
      have hrow' : db'.subqueries.lookup q.id = some row := hrow
      rw [hrows q hq'] at hrow'
      obtain rfl := Option.some.inj hrow'
      have hqid : query.id = queryId := hq
      have hstored := hok.stored rfl
      rw [show (⟨query, .saveSubqueries⟩ : Creation).query.id = queryId from hqid,
        hqrow'] at hstored
      obtain rfl := Option.some.inj hstored
      cases hstatus
    · exact hdb.row queryId qrow hqrow' hstatus id row (hother id hid ▸ hrow) hq
  | _ => exact hdb

/-- A handler keeps the promise just in case it does not complete its query: its own
row is still `null` when it saves the status. -/
theorem Handler.complete_of_fires {dto : SubqueryDto} {phase : HandlerPhase} {e : Effect Handler}
    (haw : Awaits db dto) (hok : (⟨dto, phase⟩ : Handler).Ok db) (hdb : CompletedMeansComplete db)
    (h : Fires db cache dto phase c e) :
    CompletedMeansComplete e.db ↔ ¬ (c = .proceed ∧ (⟨dto, phase⟩ : Handler).FindsAll) := by
  obtain ⟨row, hrow, -, hq, -, hnull⟩ := haw
  cases h with
  | savedQuery subquery query cached =>
    obtain ⟨-, -, ⟨hid, -⟩, hown⟩ := hok
    have hcompleted : (updatedQuery dto query cached).status = .COMPLETED ↔ _ :=
      status_updatedQuery_iff hown
    show CompletedMeansComplete (db.saveQuery (updatedQuery dto query cached)) ↔ _
    constructor
    · rintro hdb' ⟨-, hall⟩
      have hqrow := Database.lookup_saveQuery db (updatedQuery dto query cached)
      exact hdb'.row _ _ hqrow (hcompleted.mpr hall) dto.id row hrow (hq.trans hid.symm) hnull
    · intro hno
      refine .of_row fun queryId qrow hqrow hstatus id row' hrow' hq' => ?_
      by_cases hqid : queryId = (updatedQuery dto query cached).id
      · subst hqid
        rw [Database.lookup_saveQuery] at hqrow
        obtain rfl := Option.some.inj hqrow
        exact absurd ⟨rfl, hcompleted.mp hstatus⟩ hno
      · rw [Database.lookup_saveQuery_ne db hqid] at hqrow
        exact hdb.row queryId qrow hqrow hstatus id row' hrow' hq'
  | savedSubquery subquery updated latest db' hsave =>
    obtain ⟨hqueries, hother, hown⟩ := hok.saved hsave
    refine iff_of_true (.of_row fun queryId qrow hqrow hstatus id row' hrow' hq' => ?_) fun h => h.2
    have hqrow' : db.queries.lookup queryId = some qrow := hqueries ▸ hqrow
    by_cases hid : id = dto.id
    · -- The query of the row that was `null` was not completed.
      subst hid
      obtain rfl := Option.some.inj (hown.symm.trans hrow')
      exact absurd hnull (hdb.row queryId qrow hqrow' hstatus dto.id row hrow (hq.trans hq'))
    · exact hdb.row queryId qrow hqrow' hstatus id row' ((hother id hid).symm.trans hrow') hq'
  | rejects => exact iff_of_true hdb fun h => nomatch h.1
  | _ => exact iff_of_true hdb fun h => h.2

end Segments

/-! ### Whole runs -/

/-- Out of a state where completed queries are complete, a step keeps them so just
in case it does not complete a query. -/
theorem complete_step {cfg : Settings} {s s' : Sys} {a : Act Choice EnvAct}
    (hI : (discipline cfg).Inv s) (hdb : CompletedMeansComplete s.store.db)
    (hs : (system cfg).step s a = some s') :
    CompletedMeansComplete s'.store.db ↔ ¬ Completes s a := by
  rcases system_step_cases hs with ⟨i, c, t, rest, ts, rfl, hr, hreacts⟩ | ⟨e, ts, rfl, hacts, -⟩
  · have hok := (hI.ok t hr.mem).2
    have hnot : (∀ u : Handler, t ≠ .handler u) → ¬ Completes s (.run i c) := by
      intro hne hc
      cases c with
      | proceed =>
        obtain ⟨u, hu, -⟩ := hc
        rw [hr.get] at hu
        exact hne u (Option.some.inj hu)
      | _ => exact hc
    generalize s'.store = store' at hreacts
    cases hreacts with
    | @creation t c e h =>
      exact iff_of_true (Creation.complete_of_fires hok (hI.owned_runs hr).1 hdb h)
        (hnot fun u hu => nomatch hu)
    | @handler t c e h =>
      rw [show (e.store s.store).db = e.db from rfl, Handler.complete_of_fires hok.1 hok.2 hdb h]
      refine not_congr ?_
      constructor
      · rintro ⟨rfl, hall⟩
        exact ⟨t, hr.get, hall⟩
      · intro hc
        cases c with
        | proceed =>
          obtain ⟨u, hu, hall⟩ := hc
          rw [hr.get] at hu
          obtain rfl := Task.handler.inj (Option.some.inj hu)
          exact ⟨rfl, hall⟩
        | _ => exact absurd hc id
    | _ => exact iff_of_true hdb (hnot fun u hu => nomatch hu)
  · rw [hacts.db]
    exact iff_of_true hdb id

/-- **When completed means complete.**  Along every run, the queries marked
completed are complete in every state just in case no handler that holds all
results gets to save its query. -/
theorem completedMeansComplete_iff (cfg : Settings) {tr : List (Sys × Act Choice EnvAct)} {s : Sys}
    (h : Run (system cfg).step initial tr s) :
    (∀ t ∈ visited tr s, CompletedMeansComplete t.store.db) ↔ ∀ p ∈ tr, ¬ Completes p.1 p.2 := by
  refine h.forall_visited_iff (P := fun t => CompletedMeansComplete t.store.db)
    (fun hrun => inv_of_reachable ⟨_, hrun⟩) ?_ fun hI hdb hs => complete_step hI hdb hs
  refine .of_row fun queryId qrow hqrow => ?_
  simp [initial, Database.empty] at hqrow

/-- A request that names a path twice.  Only its first subquery is scheduled; once
its result is cached, the handler finds all results, for both rows. -/
def repeatedPath : List (Act Choice EnvAct) :=
  [.env (.create ⟨["people/1", "people/1"], some "http://localhost:3000"⟩ [⟨0⟩, ⟨1⟩] ⟨2⟩),
    .run 0 (.read 0), .run 0 (.read 1), .run 0 .proceed, .run 0 .proceed, .run 0 .proceed,
    -- Scheduled, admitted, logged and fetched.
    .run 0 .proceed, .run 0 .proceed, .run 0 .proceed, .run 0 .proceed, .run 0 .proceed,
    .run 1 (.draw ⟨3⟩), .run 1 .proceed, .run 0 .proceed, .run 0 (.body (.structured "\x7b\x7d")),
    -- Cached first, and then handled.
    .run 1 .proceed, .run 1 .proceed, .run 1 .proceed, .run 0 .proceed, .run 0 .proceed,
    .run 0 .proceed, .run 0 (.read 0), .run 0 (.read 1), .run 0 .proceed, .run 0 .proceed,
    .run 0 .proceed]

/-- **A completed query with a row that is `null` for ever**: nothing is left that
could fill it. -/
theorem completed_without_result :
    ∃ s : Sys, Reachable (system ⟨1, "http://swapi", some⟩).step initial s ∧ s.pool = [] ∧
      ¬ CompletedMeansComplete s.store.db := by
  have hexec : (exec (system ⟨1, "http://swapi", some⟩).step initial repeatedPath).any (fun s =>
      s.pool = [] ∧
        s.store.db.queries.lookup ⟨2⟩ = some ⟨some "http://localhost:3000", .COMPLETED⟩ ∧
        s.store.db.subqueries.lookup ⟨1⟩ = some ⟨"people/1", ⟨2⟩, .null⟩) = true := by
    decide +kernel
  obtain ⟨s, hs, hp⟩ := exists_reachable_of_exec _ hexec
  obtain ⟨hpool, hquery, hrow⟩ := of_decide_eq_true hp
  exact ⟨s, hs, hpool, fun hdb => hdb.row ⟨2⟩ _ hquery rfl ⟨1⟩ _ hrow rfl rfl⟩

theorem completedMeansComplete_iff_repeatedPath :
    ∃ tr s, Run (system ⟨1, "http://swapi", some⟩).step initial tr s ∧
      tr.map Prod.snd = repeatedPath ∧
      ((∀ t ∈ visited tr s, CompletedMeansComplete t.store.db) ↔
        ∀ p ∈ tr, ¬ Completes p.1 p.2) := by
  have hexec : (exec (system ⟨1, "http://swapi", some⟩).step initial repeatedPath).any
      (fun s => s.pool = []) = true := by decide +kernel
  obtain ⟨tr, s, hrun, htr, -⟩ := exists_run_of_exec _ hexec
  exact ⟨tr, s, hrun, htr, completedMeansComplete_iff _ hrun⟩

end SwapiService
