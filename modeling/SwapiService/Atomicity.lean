import SwapiService.Answering
import SwapiService.Decision

/-!
# What a failing call leaves behind

Either operation of the query manager writes to its two tables by two saves, the query
first.  A call that fails before them leaves everything as it was.  The second save is
another matter: when it fails, the first one stays.

## Main definitions

* `Database.SameRows` — two databases store the same.
* `CreationAtomic`, `HandlingAtomic` — an operation that rejects has done nothing.
* `FailsEarly` — a creation fails before its second save.
* `KeepsStatus` — a handler saves the status that is stored.

## Main results

* `creation_atomic_iff` — a creation is atomic unless its second save fails or is refused.
* `handling_atomic_iff` — so is a handler, and also if its first save changes nothing.
* `pending_left_behind`, `completed_unstored` — what is left behind otherwise.
-/

namespace SwapiService

open TaskPool

/-! ### Rows -/

/-- The two databases store the same rows. -/
structure Database.SameRows (db db' : Database) : Prop where
  queries : ∀ id, db'.queries.lookup id = db.queries.lookup id
  subqueries : ∀ id, db'.subqueries.lookup id = db.subqueries.lookup id

theorem Database.SameRows.refl (db : Database) : db.SameRows db := ⟨fun _ => rfl, fun _ => rfl⟩

/-- Saving a query changes nothing just in case its row is there already. -/
theorem Database.sameRows_saveQuery_iff {db : Database} {query : QueryEntity} :
    db.SameRows (db.saveQuery query) ↔
      db.queries.lookup query.id = some ⟨query.callbackUrl, query.status⟩ := by
  constructor
  · intro h
    rw [← h.queries, lookup_saveQuery]
  · intro hrow
    refine ⟨fun id => ?_, fun _ => rfl⟩
    by_cases hid : id = query.id
    · subst hid
      rw [lookup_saveQuery, hrow]
    · exact lookup_saveQuery_ne db hid

/-- If a read fails, and no other call, then the call that fails is a read. -/
theorem exists_of_readFails {κ : Type} [DecidableEq κ] {reads : List CacheRead} {failing : κ}
    {cacheRead : ℕ → κ} (h : readFails (fun j => cacheRead j = failing) reads = true) :
    ∃ j, failing = cacheRead j := by
  obtain ⟨j, -, hj⟩ := readFails_iff.mp h
  exact ⟨j, (of_decide_eq_true hj).symm⟩

/-! ### Creating a query -/

/-- If the call rejects, the tables are as before and nothing has been published. -/
def CreationAtomic (db : Database) (s : Call) : Prop :=
  s.rejected = true → db.SameRows s.db ∧ s.emitted = []

/-- A call before the last one fails: a read, or the save of the query, which is refused if
the callback cannot be stored. -/
def FailsEarly (dto : CreateQueryRequestDto) (failing : CreationAwait) : Prop :=
  (∃ j < dto.subqueries.length, failing = .cacheRead j) ∨ failing = .saveQuery ∨
    dto.callbackUrl.all storable = false

/-- A read of a request fails, if one of its positions is the one that fails. -/
theorem DrawnIds.readFails_iff {db : Database} {dto : CreateQueryRequestDto}
    (drawn : DrawnIds db dto) (failing : CreationAwait) :
    readFails (fun j => (CreationAwait.cacheRead j = failing : Bool)) (startReads drawn.query)
        = true ↔ ∃ j < dto.subqueries.length, failing = .cacheRead j := by
  have hlen : (startReads drawn.query).length = dto.subqueries.length := by
    rw [← drawn.map_path, startReads, List.length_map, List.length_map]
  rw [SwapiService.readFails_iff, ← hlen]
  refine exists_congr fun j => ?_
  rw [decide_eq_true_eq, @eq_comm _ failing, and_congr_left_iff]
  rintro rfl
  constructor
  · intro hopen
    obtain ⟨r, hr, -⟩ := (Option.any_eq_true _ _).mp hopen
    exact (List.getElem?_eq_some_iff.mp hr).1
  · -- No read of a new request has been answered.
    intro hj
    rw [isOpen, List.getElem?_eq_getElem hj, Option.any_some]
    simp [startReads]

/-- **When a creation is atomic.**  Whatever is requested, stored and cached, let one call
fail.  If the creation rejects then it has left no trace, unless it was the save of the
subqueries: a path was not cached, no call failed before, and this one did or was refused
because of a path that cannot be stored. -/
theorem creation_atomic_iff (db : Database) (cache : ResourceCollection)
    (dto : CreateQueryRequestDto) (drawn : DrawnIds db dto) (failing : CreationAwait) :
    (creationCall cache (· = failing)).Ensures (· ≠ .fail) (CreationAtomic db) (.start db)
        (processNewQueryRequestAsync drawn.query) ↔
      AllCached cache dto ∨ FailsEarly dto failing ∨
        failing ≠ .saveSubqueries ∧ ∀ path ∈ dto.subqueries, storable path = true := by
  rw [(ensures_create cache (· = failing) _ _).iff_of_eq, create_eq]
  -- Before the query is saved there is nothing to leave behind.
  have hearly : CreationAtomic db (Call.start db).reject := fun _ => ⟨.refl db, rfl⟩
  -- Its row is there afterwards, and was not before.
  have hlate : ∀ s : Call, s.db = db.saveQuery (rebuiltQuery cache drawn.query) →
      ¬ CreationAtomic db s.reject := by
    intro s hs h
    have hrows := (h rfl).1
    rw [show s.reject.db = s.db from rfl, hs] at hrows
    have hrow := Database.sameRows_saveQuery_iff.mp hrows
    exact drawn.unstored (Database.mem_of_lookup hrow)
  split_ifs with hread hcached
  · exact iff_of_true hearly (.inr (.inl (.inl ((drawn.readFails_iff failing).mp hread))))
  · exact iff_of_true (fun h => absurd h Bool.false_ne_true) (.inl hcached)
  · rw [drawn.readFails_iff] at hread
    rw [or_iff_right hcached, FailsEarly, or_iff_right hread, Call.saveCreated]
    by_cases hquery : failing = .saveQuery
    · subst hquery
      rw [if_pos (decide_eq_true rfl)]
      exact iff_of_true hearly (.inl (.inl rfl))
    rw [if_neg (by simpa [eq_comm] using hquery), or_iff_right hquery]
    by_cases hurl : dto.callbackUrl.all storable = true
    · have hinsert : (Call.start db).db.insertQuery (rebuiltQuery cache drawn.query)
          = some (db.saveQuery (rebuiltQuery cache drawn.query)) := if_pos hurl
      rw [hinsert, hurl, or_iff_right (by decide)]
      by_cases hlast : failing = .saveSubqueries
      · subst hlast
        refine iff_of_false ?_ fun h => h.1 rfl
        simp only [Call.saveSubqueries, decide_true, if_true]
        exact hlate _ rfl
      have hfails : decide (CreationAwait.saveSubqueries = failing) = false := by
        simpa [eq_comm] using hlast
      simp only [Call.saveSubqueries, hfails, Bool.false_eq_true, if_false]
      by_cases hpaths : ∀ path ∈ dto.subqueries, storable path = true
      · obtain ⟨db', hsave, -⟩ := drawn.records cache hpaths
        refine iff_of_true (fun h => absurd h ?_) ⟨hlast, hpaths⟩
        simp [hsave, Call.start]
      · rw [drawn.saveSubqueries_eq_none cache hpaths]
        exact iff_of_false (hlate _ rfl) fun h => hpaths h.2
    · have hrefused : (Call.start db).db.insertQuery (rebuiltQuery cache drawn.query) = none :=
        if_neg hurl
      rw [hrefused]
      exact iff_of_true hearly (.inl (Bool.eq_false_of_not_eq_true hurl))

/-- **A query nobody knows.**  The save of its subqueries fails: the creation rejects, and
the query stays behind, pending and without a subquery. -/
theorem pending_left_behind :
    ∃ s, (creationCall .empty (· = .saveSubqueries)).Completes (· ≠ .fail) (.start .empty)
        (processNewQueryRequestAsync repeatedRequestIds.query) s ∧
      s.rejected = true ∧ s.db.queries.lookup ⟨3⟩ = some ⟨repeatedRequest.callbackUrl, .PENDING⟩ ∧
      s.db.subqueriesOf ⟨3⟩ = [] ∧ ¬ CreationAtomic .empty s := by
  have hensures := ensures_create .empty (· = .saveSubqueries) (.start .empty)
    (processNewQueryRequestAsync repeatedRequestIds.query)
  obtain ⟨s, hs⟩ := hensures.exists_completes
  obtain rfl := hensures.of_completes hs
  refine ⟨_, hs, by decide +kernel, by decide +kernel, by decide +kernel, fun h => ?_⟩
  have hrow := (h (by decide +kernel)).1.queries ⟨3⟩
  exact absurd hrow (by decide +kernel)

/-! ### Handling a result -/

/-- If the handler rejects, the tables are as before and nothing has been posted. -/
def HandlingAtomic (db : Database) (s : Call) : Prop :=
  s.rejected = true → db.SameRows s.db ∧ s.posts = []

/-- The query the event names has the status already that its handler decides on, or the
handler does not get that far. -/
def KeepsStatus (db : Database) (cache : ResourceCollection) (dto : SubqueryDto) : Prop :=
  dto.id ∈ db.subqueries → ∀ qrow, db.queries.lookup dto.queryId = some qrow →
    (qrow.status = .COMPLETED ↔ ResultsFound db cache dto)

section Handling

variable {db : Database} {dto : SubqueryDto} (cache : ResourceCollection)
  (fails : HandlerAwait → Bool)

/-- A handler whose subquery or query is not stored rejects. -/
theorem handle_of_missing (h : ¬ (dto.id ∈ db.subqueries ∧ dto.queryId ∈ db.queries)) :
    (Call.start db).handle cache fails ⟨dto, .findSubquery⟩ = (Call.start db).reject := by
  simp only [Call.handle]
  split_ifs
  · rfl
  · cases hsub : db.findSubquery dto.id with
    | none => simp only [Call.start, hsub]
    | some subquery =>
      obtain ⟨row, hrow, -⟩ := Database.findSubquery_eq_some.mp hsub
      have hquery : db.findQuery dto.queryId = none := by
        rw [Database.findQuery, Option.map_eq_none_iff, AList.lookup_eq_none]
        exact fun hmem => h ⟨Database.mem_of_lookup hrow, hmem⟩
      simp only [Call.start, hsub, Call.loadQuery, hquery, ite_self]

variable {row : SubqueryRow} {qrow : QueryRow}

/-- The second save, onto the row the handler has found. -/
theorem saveResult_of_row {s : Call} (hrow : s.db.subqueries.lookup dto.id = some row)
    (updated : QueryEntity) (latest : CreateQueryResponseDto) :
    s.saveResult fails { Database.toEntity dto.id row with result := dto.result } updated latest =
      if fails .saveSubquery then s.reject
      else
        { s with
          db :=
            { s.db with
              subqueries := s.db.subqueries.insert dto.id { row with result := dto.result } }
          posts := s.posts ++ notifications updated latest } := by
  unfold Call.saveResult
  split_ifs
  · rfl
  · rw [Database.saveSubquery_of_row rfl hrow]
    rfl

/-- **What handling a result amounts to**, its subquery and its query being stored. -/
theorem handle_eq (hrow : db.subqueries.lookup dto.id = some row)
    (hqrow : db.queries.lookup dto.queryId = some qrow) :
    (Call.start db).handle cache fails ⟨dto, .findSubquery⟩ =
      if fails .findSubquery then (Call.start db).reject
      else if fails .findQuery then (Call.start db).reject
      else if readFails (fun j => fails (.cacheRead j))
          (startReads (loadedQuery db dto.queryId qrow)) then
        (Call.start db).reject
      else if fails .saveQuery then (Call.start db).reject
      else if fails .saveSubquery then
        { Call.start db with db := db.saveQuery (decidedQuery db cache dto qrow) }.reject
      else
        { Call.start db with
          db := handleSubqueryResult db cache dto
          posts := notifications (decidedQuery db cache dto qrow)
            (latestResponse dto (loadedQuery db dto.queryId qrow)
              (readAll cache (startReads (loadedQuery db dto.queryId qrow)))) } := by
  have hsubquery : (Call.start db).db.findSubquery dto.id = some (Database.toEntity dto.id row) :=
    Database.findSubquery_eq_some.mpr ⟨row, hrow, rfl⟩
  have hquery : (Call.start db).db.findQuery dto.queryId
      = some (loadedQuery db dto.queryId qrow) :=
    Database.findQuery_eq_some.mpr ⟨qrow, hqrow, rfl⟩
  rw [handleSubqueryResult_eq hrow hqrow]
  simp only [Call.handle, Call.loadQuery, Call.readResults, Call.saveDecided, hsubquery, hquery]
  rw [saveResult_of_row fails hrow]
  rfl

end Handling

/-- A status is determined by whether it is the final one. -/
theorem Status.eq_iff {a b : Status} : a = b ↔ (a = .COMPLETED ↔ b = .COMPLETED) := by
  cases a <;> cases b <;> decide

/-- The first save changes nothing just in case it keeps the status. -/
theorem sameRows_decidedQuery_iff {db : Database} {cache : ResourceCollection} {dto : SubqueryDto}
    {qrow : QueryRow} (hsub : dto.id ∈ db.subqueries)
    (hqrow : db.queries.lookup dto.queryId = some qrow) :
    db.SameRows (db.saveQuery (decidedQuery db cache dto qrow)) ↔ KeepsStatus db cache dto := by
  have hrow : db.queries.lookup (decidedQuery db cache dto qrow).id = some qrow := hqrow
  have hstatus : db.SameRows (db.saveQuery (decidedQuery db cache dto qrow)) ↔
      qrow.status = (decidedQuery db cache dto qrow).status := by
    rw [Database.sameRows_saveQuery_iff, hrow, Option.some_inj]
    constructor
    · exact congrArg QueryRow.status
    · intro heq
      rw [← heq]
      rfl
  rw [hstatus, Status.eq_iff, status_decidedQuery_iff_resultsFound]
  constructor
  · intro hkeeps _ qrow' hqrow'
    rw [hqrow] at hqrow'
    obtain rfl := Option.some.inj hqrow'
    exact hkeeps
  · intro hkeeps
    exact hkeeps hsub qrow hqrow

/-- **When handling a result is atomic.**  Whatever is stored and cached, and whatever the
event says, let one call fail.  If the handler rejects then it has left no trace, unless
that was the save of the subquery and the status saved before is not the stored one. -/
theorem handling_atomic_iff (db : Database) (cache : ResourceCollection) (dto : SubqueryDto)
    (failing : HandlerAwait) :
    (handlerCall cache (· = failing)).Ensures (· ≠ .fail) (HandlingAtomic db) (.start db)
        ⟨dto, .findSubquery⟩ ↔
      (failing = .saveSubquery → KeepsStatus db cache dto) := by
  rw [(ensures_handle cache (· = failing) _ _).iff_of_eq]
  have hreject : HandlingAtomic db (Call.start db).reject := fun _ => ⟨.refl db, rfl⟩
  by_cases hstored : dto.id ∈ db.subqueries ∧ dto.queryId ∈ db.queries
  · obtain ⟨row, hrow⟩ := Database.exists_lookup hstored.1
    obtain ⟨qrow, hqrow⟩ := Database.exists_lookup hstored.2
    rw [handle_eq cache _ hrow hqrow]
    split_ifs with hfind hload hread hquery hsub
    · obtain rfl := of_decide_eq_true hfind
      exact iff_of_true hreject nofun
    · obtain rfl := of_decide_eq_true hload
      exact iff_of_true hreject nofun
    · obtain ⟨j, rfl⟩ := exists_of_readFails hread
      exact iff_of_true hreject nofun
    · obtain rfl := of_decide_eq_true hquery
      exact iff_of_true hreject nofun
    · -- The status is saved by then, and the result is not.
      obtain rfl := of_decide_eq_true hsub
      rw [← sameRows_decidedQuery_iff hstored.1 hqrow, imp_iff_right rfl]
      constructor
      · intro hatomic
        exact (hatomic rfl).1
      · intro hsame _
        exact ⟨hsame, rfl⟩
    · refine iff_of_true (fun h => absurd h Bool.false_ne_true) fun heq => ?_
      exact absurd (decide_eq_true heq.symm) hsub
  · rw [handle_of_missing cache _ hstored]
    refine iff_of_true hreject fun _ hsub qrow hqrow => ?_
    exact absurd ⟨hsub, Database.mem_of_lookup hqrow⟩ hstored

/-- **A query completed without its last result.**  The save of the subquery fails: the
handler rejects, the query is completed, and the result of its subquery is missing. -/
theorem completed_unstored :
    ∃ s, (handlerCall peopleCached (· = .saveSubquery)).Completes (· ≠ .fail) (.start halfDone)
        ⟨lastResult, .findSubquery⟩ s ∧
      s.rejected = true ∧ s.db.queries.lookup ⟨2⟩ = some ⟨none, .COMPLETED⟩ ∧
      s.db.subqueries.lookup ⟨1⟩ = some ⟨"planets/1", ⟨2⟩, .null⟩ ∧
      ¬ HandlingAtomic halfDone s := by
  have hensures := ensures_handle peopleCached (· = .saveSubquery) (.start halfDone)
    ⟨lastResult, .findSubquery⟩
  obtain ⟨s, hs⟩ := hensures.exists_completes
  obtain rfl := hensures.of_completes hs
  refine ⟨_, hs, by decide +kernel, by decide +kernel, by decide +kernel, fun h => ?_⟩
  have hrow := (h (by decide +kernel)).1.queries ⟨2⟩
  exact absurd hrow (by decide +kernel)

end SwapiService
