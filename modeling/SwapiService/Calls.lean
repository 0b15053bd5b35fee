import SwapiService.Sequential

/-!
# One call on its own

A call of `processNewQueryRequestAsync` or of `handleSubqueryResultAsync` while nothing
else happens: the cache stays as it is, and nobody else writes to the database.  Which of
the awaited calls fail is fixed beforehand; the replies of the cache arrive in any order.
The segments then amount to straight-line code, whatever that order is.

## Main definitions

* `Call` — what has come of a call so far.
* `CreationAwait`, `HandlerAwait` — the calls the two operations await.
* `creationCall`, `handlerCall` — the machines.
* `Call.create`, `Call.handle` — the straight-line code.

## Main results

* `ensures_create`, `ensures_handle` — every execution comes to its end, which is the one
  of the straight-line code.
-/

namespace SwapiService

open TaskPool

/-! ### The machine -/

/-- What has come of a call: the database, whether its promise is rejected, and what it has
published, returned and posted. -/
structure Call where
  db : Database
  rejected : Bool
  emitted : List SubqueryPayload
  responses : List CreateQueryResponseDto
  posts : List Notification

/-- Nothing so far. -/
def Call.start (db : Database) : Call := ⟨db, false, [], [], []⟩

/-- The promise is rejected. -/
def Call.reject (s : Call) : Call := { s with rejected := true }

/-- After a segment. -/
def Call.after {α : Type} (s : Call) (e : Effect α) : Call where
  db := e.db
  rejected :=
    match e.outcome with
    | .rejected => true
    | _ => s.rejected
  emitted := s.emitted ++ e.emitted
  responses := s.responses ++ e.responses
  posts := s.posts ++ e.posts

theorem Call.after_rejected {α : Type} (s : Call) :
    s.after ({ db := s.db, outcome := .rejected } : Effect α) = s.reject := by
  simp [after, reject]

theorem Call.after_suspended {α : Type} (s : Call) (db : Database) (t : α) :
    s.after ({ db, outcome := .suspended t } : Effect α) = { s with db } := by
  simp [after]

section Machine

variable {α κ : Type} {step : Database → ResourceCollection → α → Choice → Option (Effect α)}
  {awaits : α → Choice → Option κ} {cache : ResourceCollection} {fails : κ → Bool}

/-- One segment.  If the call it awaits is one of those that fail, its promise is rejected. -/
def callReact (step : Database → ResourceCollection → α → Choice → Option (Effect α))
    (awaits : α → Choice → Option κ) (cache : ResourceCollection) (fails : κ → Bool) (s : Call)
    (t : α) (c : Choice) : Option (Call × List α) :=
  (step s.db cache t (if (awaits t c).any fails then .fail else c)).map fun e =>
    (s.after e, e.outcome.tasks id)

/-- A segment, according to whether its call fails. -/
theorem callReact_cases {s s' : Call} {t : α} {c : Choice} {ts : List α}
    (h : callReact step awaits cache fails s t c = some (s', ts)) :
    ∃ e, s' = s.after e ∧ ts = e.outcome.tasks id ∧
      ((∃ k, awaits t c = some k ∧ fails k = true ∧ step s.db cache t .fail = some e) ∨
        (∀ k, awaits t c = some k → fails k = false) ∧ step s.db cache t c = some e) := by
  obtain ⟨e, hstep, heq⟩ := Option.map_eq_some_iff.mp h
  obtain ⟨rfl, rfl⟩ := Prod.mk.inj heq
  refine ⟨e, rfl, rfl, ?_⟩
  by_cases hfails : (awaits t c).any fails = true
  · rw [if_pos hfails] at hstep
    obtain ⟨k, hk, hfk⟩ := (Option.any_eq_true _ _).mp hfails
    exact .inl ⟨k, hk, hfk, hstep⟩
  · rw [if_neg hfails] at hstep
    refine .inr ⟨?_, hstep⟩
    intro k hk
    rw [hk, Option.any_some, Bool.not_eq_true] at hfails
    exact hfails

/-- The machine: one activation, and nothing from outside. -/
def callAlone (step : Database → ResourceCollection → α → Choice → Option (Effect α))
    (awaits : α → Choice → Option κ) (cache : ResourceCollection) (fails : κ → Bool) :
    Machine Call α Choice Empty :=
  ⟨callReact step awaits cache fails, fun _ e => nomatch e⟩

/-- **The rule of calls on their own.**  Let `finish` be the straight-line code of an
operation: it rejects where the awaited call fails, and elsewhere a segment leaves it the
same.  Then every execution comes to its end. -/
theorem ensures_call (rank : α → ℕ × ℕ) (finish : Call → α → Call)
    (hfail : ∀ db t, step db cache t .fail = some { db, outcome := .rejected })
    (hprogress : ∀ db t, ∃ c e, c ≠ .fail ∧ step db cache t c = some e)
    (hrejects : ∀ {s t c k}, awaits t c = some k → fails k = true → finish s t = s.reject)
    (hstep : ∀ {s t c e}, c ≠ .fail → (∀ k, awaits t c = some k → fails k = false) →
      step s.db cache t c = some e → e.outcome.tasks id = [] ∧ finish s t = s.after e ∨
        ∃ t', e.outcome = .suspended t' ∧ finish s t = finish (s.after e) t')
    (hrank : ∀ {db t c e t'}, step db cache t c = some e → e.outcome = .suspended t' →
      Prod.Lex (· < ·) (· < ·) (rank t') (rank t)) (s : Call) (t : α) :
    (callAlone step awaits cache fails).Ensures (· ≠ .fail) (· = finish s t) s t := by
  refine Machine.ensures_eq wellFounded_rank rank ?_ ?_ s t
  · intro s t
    obtain ⟨c, e, hc, he⟩ := hprogress s.db t
    show ∃ c r, c ≠ .fail ∧ callReact step awaits cache fails s t c = some r
    unfold callReact
    refine ⟨c, ?_⟩
    split_ifs
    · exact ⟨_, hc, by rw [hfail, Option.map_some]⟩
    · exact ⟨_, hc, by rw [he, Option.map_some]⟩
  · intro s t c s' ts hc h
    obtain ⟨e, rfl, rfl, ⟨k, hk, hfails, he⟩ | ⟨hok, he⟩⟩ := callReact_cases h
    · rw [hfail] at he
      obtain rfl := Option.some.inj he
      refine .inl ⟨rfl, ?_⟩
      rw [Call.after_rejected]
      exact hrejects hk hfails
    · rcases hstep hc hok he with ⟨hts, hs⟩ | ⟨t', ht', hs⟩
      · exact .inl ⟨hts, hs⟩
      · exact .inr ⟨t', by rw [ht']; rfl, hs, hrank he ht'⟩

end Machine

/-! ### Reads that fail -/

section Reads

variable {cache : ResourceCollection} {reads reads' : List CacheRead} {j : ℕ} {fails : ℕ → Bool}

/-- The read at position `j` has not been answered. -/
def isOpen (reads : List CacheRead) (j : ℕ) : Bool := reads[j]?.any fun r => r.reply.isNone

/-- One of the open reads will fail. -/
def readFails (fails : ℕ → Bool) (reads : List CacheRead) : Bool :=
  reads.zipIdx.any fun p => p.1.reply.isNone && fails p.2

theorem readFails_iff : readFails fails reads = true ↔
    ∃ j, isOpen reads j = true ∧ fails j = true := by
  simp only [readFails, isOpen, List.any_eq_true, Prod.exists, List.mem_zipIdx_iff_getElem?,
    Bool.and_eq_true, Option.any_eq_true]
  constructor
  · rintro ⟨r, j, hr, hopen, hj⟩
    exact ⟨j, ⟨r, hr, hopen⟩, hj⟩
  · rintro ⟨j, ⟨r, hr, hopen⟩, hj⟩
    exact ⟨r, j, hr, hopen, hj⟩

/-- An open read is answered, and the others are left alone. -/
theorem isOpen_answerRead (h : answerRead cache reads j = some reads') :
    isOpen reads j = true ∧ ∀ k, isOpen reads' k = true ↔ isOpen reads k = true ∧ k ≠ j := by
  obtain ⟨r, hr, hreply, rfl⟩ := exists_of_answerRead h
  obtain ⟨hj, -⟩ := List.getElem?_eq_some_iff.mp hr
  unfold isOpen
  refine ⟨by rw [hr, Option.any_some, hreply]; rfl, fun k => ?_⟩
  by_cases hk : k = j
  · subst hk
    rw [List.getElem?_set_self hj]
    simp
  · rw [List.getElem?_set_ne (Ne.symm hk)]
    simp [hk]

/-- Answering a read that does not fail. -/
theorem readFails_answerRead (h : answerRead cache reads j = some reads') (hj : fails j = false) :
    readFails fails reads' = readFails fails reads := by
  rw [Bool.eq_iff_iff, readFails_iff, readFails_iff]
  apply exists_congr
  intro k
  rw [(isOpen_answerRead h).2 k]
  constructor
  · rintro ⟨⟨hopen, -⟩, hk⟩
    exact ⟨hopen, hk⟩
  · rintro ⟨hopen, hk⟩
    refine ⟨⟨hopen, ?_⟩, hk⟩
    rintro rfl
    rw [hj] at hk
    cases hk

/-- No read is open when all replies are there. -/
theorem readFails_of_allReplies {replies : List SubqueryDto} (h : allReplies reads = some replies) :
    readFails fails reads = false := by
  rw [← Bool.not_eq_true, readFails_iff]
  rintro ⟨j, hopen, -⟩
  obtain ⟨r, hr, hnone⟩ := (Option.any_eq_true _ _).mp hopen
  have hmem : r.reply ∈ reads.map CacheRead.reply := List.mem_map_of_mem (List.mem_of_getElem? hr)
  rw [promiseAll_eq_some.mp h] at hmem
  obtain ⟨d, -, hd⟩ := List.mem_map.mp hmem
  rw [← hd] at hnone
  cases hnone

end Reads

/-! ### Creating a query -/

/-- The calls `processNewQueryRequestAsync` awaits. -/
inductive CreationAwait
  | cacheRead (j : ℕ)
  | saveQuery
  | saveSubqueries
  deriving DecidableEq, Repr

/-- The call a segment awaits. -/
def Creation.awaits (t : Creation) : Choice → Option CreationAwait
  | .read j =>
      match t.phase with
      | .readCache reads => if isOpen reads j then some (.cacheRead j) else none
      | _ => none
  | .proceed =>
      match t.phase with
      | .readCache _ => none
      | .saveQuery => some .saveQuery
      | .saveSubqueries => some .saveSubqueries
  | _ => none

/-- A call of `processNewQueryRequestAsync`. -/
def creationCall (cache : ResourceCollection) (fails : CreationAwait → Bool) :
    Machine Call Creation Choice Empty :=
  callAlone Creation.step Creation.awaits cache fails

section Create

variable (cache : ResourceCollection) (fails : CreationAwait → Bool)

/-- The second save of `fetchQueryRequestResultsFromDataSource`, and the rest. -/
def Call.saveSubqueries (s : Call) (query : QueryEntity) : Call :=
  if fails .saveSubqueries then s.reject
  else
    match s.db.saveSubqueries query.subqueries with
    | none => s.reject
    | some db =>
        { s with
          db
          emitted := s.emitted ++ (targetSubqueries query).map (schedulePayload query.id)
          responses := s.responses ++ [fetchQueryRequestResultsFromDataSource query] }

/-- `fetchQueryRequestResultsFromDataSource`. -/
def Call.saveCreated (s : Call) (query : QueryEntity) : Call :=
  if fails .saveQuery then s.reject
  else
    match s.db.insertQuery query with
    | none => s.reject
    | some db => Call.saveSubqueries fails { s with db } query

/-- What `processNewQueryRequestAsync` has left to do at an `await`. -/
def Call.create (s : Call) (t : Creation) : Call :=
  match t.phase with
  | .readCache reads =>
      if readFails (fun j => fails (.cacheRead j)) reads then s.reject
      else
        match fetchQueryRequestResultsFromCache t.query (readAll cache reads) true with
        | (some response, _) => { s with responses := s.responses ++ [response] }
        | (none, query) => s.saveCreated fails query
  | .saveQuery => s.saveCreated fails t.query
  | .saveSubqueries => s.saveSubqueries fails t.query

end Create

/-- How much a creation has left to do. -/
def Creation.rank (t : Creation) : ℕ × ℕ :=
  match t.phase with
  | .readCache reads => (2, openReads reads)
  | .saveQuery => (1, 0)
  | .saveSubqueries => (0, 0)

section CreationCall

variable {cache : ResourceCollection} {fails : CreationAwait → Bool} {s : Call} {t : Creation}
  {c : Choice}

/-- A creation is never stuck. -/
theorem Creation.exists_step (db : Database) (cache : ResourceCollection) (t : Creation) :
    ∃ c e, c ≠ .fail ∧ t.step db cache c = some e := by
  obtain ⟨query, phase⟩ := t
  cases phase with
  | readCache reads =>
    rcases exists_answerRead cache reads with ⟨j, reads', hread⟩ | ⟨replies, hall⟩
    · exact ⟨.read j, _, by simp, by simp only [step, hread, Option.map_some]; rfl⟩
    · exact ⟨.proceed, _, by decide, by simp only [step, hall, Option.map_some]; rfl⟩
  | saveQuery =>
    refine ⟨.proceed, ?_⟩
    cases hsave : db.insertQuery query with
    | none => exact ⟨_, by decide, by simp only [step, hsave]; rfl⟩
    | some db' => exact ⟨_, by decide, by simp only [step, hsave]; rfl⟩
  | saveSubqueries =>
    refine ⟨.proceed, ?_⟩
    cases hsave : db.saveSubqueries query.subqueries with
    | none => exact ⟨_, by decide, by simp only [step, hsave]; rfl⟩
    | some db' => exact ⟨_, by decide, by simp only [step, hsave]; rfl⟩

/-- Every segment brings it nearer to its end. -/
theorem Creation.rank_lt_of_fires {db : Database} {query : QueryEntity} {phase : CreationPhase}
    {e : Effect Creation} {t' : Creation} (h : Fires db cache query phase c e)
    (ht : e.outcome = .suspended t') :
    Prod.Lex (· < ·) (· < ·) t'.rank (⟨query, phase⟩ : Creation).rank := by
  cases h with
  | reads reads reads' j hread => cases ht; exact .right _ (openReads_answerRead hread)
  | miss reads replies hall hmiss => cases ht; exact .left _ _ (by decide)
  | savedQuery => cases ht; exact .left _ _ (by decide)
  | _ => cases ht

/-- A segment whose call fails rejects the promise. -/
theorem create_of_fails {k : CreationAwait} (hk : t.awaits c = some k) (hfails : fails k = true) :
    s.create cache fails t = s.reject := by
  obtain ⟨query, phase⟩ := t
  cases phase with
  | readCache reads =>
    cases c with
    | read j =>
      simp only [Creation.awaits] at hk
      split_ifs at hk with hopen
      obtain rfl := Option.some.inj hk
      have hread : readFails (fun j => fails (.cacheRead j)) reads = true :=
        readFails_iff.mpr ⟨j, hopen, hfails⟩
      simp only [Call.create, hread, if_true]
    | _ => cases hk
  | saveQuery =>
    cases c with
    | proceed =>
      obtain rfl := Option.some.inj hk
      simp only [Call.create, Call.saveCreated, hfails, if_true]
    | _ => cases hk
  | saveSubqueries =>
    cases c with
    | proceed =>
      obtain rfl := Option.some.inj hk
      simp only [Call.create, Call.saveSubqueries, hfails, if_true]
    | _ => cases hk

/-- **A segment whose call succeeds** leaves what the creation amounts to. -/
theorem create_of_step {e : Effect Creation} (hc : c ≠ .fail)
    (hok : ∀ k, t.awaits c = some k → fails k = false) (h : t.step s.db cache c = some e) :
    e.outcome.tasks id = [] ∧ s.create cache fails t = s.after e ∨
      ∃ t', e.outcome = .suspended t' ∧
        s.create cache fails t = (s.after e).create cache fails t' := by
  have hfires := Creation.fires_of_step h
  obtain ⟨query, phase⟩ := t
  cases hfires with
  | rejects => exact absurd rfl hc
  | reads reads reads' j hread =>
    refine .inr ⟨_, rfl, ?_⟩
    have hj : fails (.cacheRead j) = false := by
      apply hok
      simp only [Creation.awaits, (isOpen_answerRead hread).1, if_true]
    have hfails : readFails (fun j => fails (.cacheRead j)) reads'
        = readFails (fun j => fails (.cacheRead j)) reads := readFails_answerRead hread hj
    simp only [Call.create, Call.after_suspended, hfails, readAll_answerRead hread]
  | hit reads replies hall hhit =>
    refine .inl ⟨rfl, ?_⟩
    simp [Call.create, readFails_of_allReplies hall, readAll_of_allReplies hall,
      fetchQueryRequestResultsFromCache, hhit, Call.after]
  | miss reads replies hall hmiss =>
    refine .inr ⟨_, rfl, ?_⟩
    simp [Call.create, readFails_of_allReplies hall, readAll_of_allReplies hall,
      fetchQueryRequestResultsFromCache, hmiss, Call.after_suspended]
  | refusedQuery hurl =>
    refine .inl ⟨rfl, ?_⟩
    have hsave := hok .saveQuery rfl
    have hrefused : s.db.insertQuery query = none := by rw [Database.insertQuery, hurl]; rfl
    simp [Call.create, Call.saveCreated, hsave, hrefused, Call.after_rejected]
  | savedQuery hurl =>
    refine .inr ⟨_, rfl, ?_⟩
    have hsave := hok .saveQuery rfl
    have hinsert : s.db.insertQuery query = some (s.db.saveQuery query) := if_pos hurl
    simp [Call.create, Call.saveCreated, hsave, hinsert, Call.after_suspended]
  | unsaved hnone =>
    refine .inl ⟨rfl, ?_⟩
    have hsave := hok .saveSubqueries rfl
    simp [Call.create, Call.saveSubqueries, hsave, hnone, Call.after_rejected]
  | savedSubqueries db' hsome =>
    refine .inl ⟨rfl, ?_⟩
    have hsave := hok .saveSubqueries rfl
    simp [Call.create, Call.saveSubqueries, hsave, hsome, Call.after]

/-- **A call of `processNewQueryRequestAsync` on its own** comes to the end of its
straight-line code, in whatever order its reads are answered. -/
theorem ensures_create (cache : ResourceCollection) (fails : CreationAwait → Bool) (s : Call)
    (t : Creation) :
    (creationCall cache fails).Ensures (· ≠ .fail) (· = s.create cache fails t) s t :=
  ensures_call Creation.rank (fun s t => s.create cache fails t) (fun _ _ => rfl)
    (fun db t => t.exists_step db cache) create_of_fails create_of_step
    (fun h ht => Creation.rank_lt_of_fires (Creation.fires_of_step h) ht) s t

end CreationCall

/-! ### Handling a result -/

/-- The calls `handleSubqueryResultAsync` awaits. -/
inductive HandlerAwait
  | findSubquery
  | findQuery
  | cacheRead (j : ℕ)
  | saveQuery
  | saveSubquery
  deriving DecidableEq, Repr

/-- The call a segment awaits. -/
def Handler.awaits (t : Handler) : Choice → Option HandlerAwait
  | .read j =>
      match t.phase with
      | .readCache _ _ reads => if isOpen reads j then some (.cacheRead j) else none
      | _ => none
  | .proceed =>
      match t.phase with
      | .findSubquery => some .findSubquery
      | .findQuery _ => some .findQuery
      | .readCache _ _ _ => none
      | .saveQuery _ _ _ => some .saveQuery
      | .saveSubquery _ _ _ => some .saveSubquery
  | _ => none

/-- A call of `handleSubqueryResultAsync`. -/
def handlerCall (cache : ResourceCollection) (fails : HandlerAwait → Bool) :
    Machine Call Handler Choice Empty :=
  callAlone Handler.step Handler.awaits cache fails

section Handle

variable (cache : ResourceCollection) (fails : HandlerAwait → Bool)

/-- The second save, and the POST. -/
def Call.saveResult (s : Call) (subquery : SubqueryEntity) (updated : QueryEntity)
    (latest : CreateQueryResponseDto) : Call :=
  if fails .saveSubquery then s.reject
  else
    match s.db.saveSubquery subquery with
    | none => s.reject
    | some db => { s with db, posts := s.posts ++ notifications updated latest }

/-- From the first save on. -/
def Call.saveDecided (s : Call) (dto : SubqueryDto) (subquery : SubqueryEntity)
    (query : QueryEntity) (cached : List SubqueryDto) : Call :=
  if fails .saveQuery then s.reject
  else
    Call.saveResult fails { s with db := s.db.saveQuery (updatedQuery dto query cached) } subquery
      (updatedQuery dto query cached) (latestResponse dto query cached)

/-- From the cache reads on. -/
def Call.readResults (s : Call) (dto : SubqueryDto) (subquery : SubqueryEntity)
    (query : QueryEntity) (reads : List CacheRead) : Call :=
  if readFails (fun j => fails (.cacheRead j)) reads then s.reject
  else s.saveDecided fails dto subquery query (readAll cache reads)

/-- From the lookup of the query on. -/
def Call.loadQuery (s : Call) (dto : SubqueryDto) (subquery : SubqueryEntity) : Call :=
  if fails .findQuery then s.reject
  else
    match s.db.findQuery dto.queryId with
    | none => s.reject
    | some query => s.readResults cache fails dto subquery query (startReads query)

/-- What `handleSubqueryResultAsync` has left to do at an `await`. -/
def Call.handle (s : Call) (t : Handler) : Call :=
  match t.phase with
  | .findSubquery =>
      if fails .findSubquery then s.reject
      else
        match s.db.findSubquery t.dto.id with
        | none => s.reject
        | some subquery => s.loadQuery cache fails t.dto { subquery with result := t.dto.result }
  | .findQuery subquery => s.loadQuery cache fails t.dto subquery
  | .readCache subquery query reads => s.readResults cache fails t.dto subquery query reads
  | .saveQuery subquery query cached => s.saveDecided fails t.dto subquery query cached
  | .saveSubquery subquery updated latest => s.saveResult fails subquery updated latest

end Handle

section HandlerCall

variable {cache : ResourceCollection} {fails : HandlerAwait → Bool} {s : Call} {t : Handler}
  {c : Choice}

/-- A segment whose call fails rejects the promise. -/
theorem handle_of_fails {k : HandlerAwait} (hk : t.awaits c = some k) (hfails : fails k = true) :
    s.handle cache fails t = s.reject := by
  obtain ⟨dto, phase⟩ := t
  cases c with
  | read j =>
    cases phase with
    | readCache subquery query reads =>
      simp only [Handler.awaits] at hk
      split_ifs at hk with hopen
      obtain rfl := Option.some.inj hk
      have hread : readFails (fun j => fails (.cacheRead j)) reads = true :=
        readFails_iff.mpr ⟨j, hopen, hfails⟩
      simp only [Call.handle, Call.readResults, hread, if_true]
    | _ => cases hk
  | proceed =>
    cases phase with
    | readCache subquery query reads => cases hk
    | findSubquery =>
      obtain rfl := Option.some.inj hk
      simp only [Call.handle, hfails, if_true]
    | findQuery subquery =>
      obtain rfl := Option.some.inj hk
      simp only [Call.handle, Call.loadQuery, hfails, if_true]
    | saveQuery subquery query cached =>
      obtain rfl := Option.some.inj hk
      simp only [Call.handle, Call.saveDecided, hfails, if_true]
    | saveSubquery subquery updated latest =>
      obtain rfl := Option.some.inj hk
      simp only [Call.handle, Call.saveResult, hfails, if_true]
  | _ => cases hk

/-- **A segment whose call succeeds** leaves what the handler amounts to. -/
theorem handle_of_step {e : Effect Handler} (hc : c ≠ .fail)
    (hok : ∀ k, t.awaits c = some k → fails k = false) (h : t.step s.db cache c = some e) :
    e.outcome.tasks id = [] ∧ s.handle cache fails t = s.after e ∨
      ∃ t', e.outcome = .suspended t' ∧
        s.handle cache fails t = (s.after e).handle cache fails t' := by
  have hfires := Handler.fires_of_step h
  obtain ⟨dto, phase⟩ := t
  cases hfires with
  | rejects => exact absurd rfl hc
  | noSubquery hfind =>
    refine .inl ⟨rfl, ?_⟩
    have hload := hok .findSubquery rfl
    simp [Call.handle, hload, hfind, Call.after_rejected]
  | foundSubquery subquery hfind =>
    refine .inr ⟨_, rfl, ?_⟩
    have hload := hok .findSubquery rfl
    simp [Call.handle, hload, hfind, Call.after_suspended]
  | noQuery subquery hfind =>
    refine .inl ⟨rfl, ?_⟩
    have hload := hok .findQuery rfl
    simp [Call.handle, Call.loadQuery, hload, hfind, Call.after_rejected]
  | foundQuery subquery query hfind =>
    refine .inr ⟨_, rfl, ?_⟩
    have hload := hok .findQuery rfl
    simp [Call.handle, Call.loadQuery, hload, hfind, Call.after_suspended]
  | reads subquery query reads reads' j hread =>
    refine .inr ⟨_, rfl, ?_⟩
    have hj : fails (.cacheRead j) = false := by
      apply hok
      simp only [Handler.awaits, (isOpen_answerRead hread).1, if_true]
    have hfails : readFails (fun j => fails (.cacheRead j)) reads'
        = readFails (fun j => fails (.cacheRead j)) reads := readFails_answerRead hread hj
    simp only [Call.handle, Call.readResults, Call.after_suspended, hfails,
      readAll_answerRead hread]
  | replied subquery query reads cached hall =>
    refine .inr ⟨_, rfl, ?_⟩
    simp [Call.handle, Call.readResults, readFails_of_allReplies hall, readAll_of_allReplies hall,
      Call.after_suspended]
  | savedQuery subquery query cached =>
    refine .inr ⟨_, rfl, ?_⟩
    have hsave := hok .saveQuery rfl
    simp [Call.handle, Call.saveDecided, hsave, Call.after_suspended]
  | unsaved subquery updated latest hnone =>
    refine .inl ⟨rfl, ?_⟩
    have hsave := hok .saveSubquery rfl
    simp [Call.handle, Call.saveResult, hsave, hnone, Call.after_rejected]
  | savedSubquery subquery updated latest db' hsome =>
    refine .inl ⟨rfl, ?_⟩
    have hsave := hok .saveSubquery rfl
    simp [Call.handle, Call.saveResult, hsave, hsome, Call.after]

/-- **A call of `handleSubqueryResultAsync` on its own** comes to the end of its
straight-line code, in whatever order its reads are answered. -/
theorem ensures_handle (cache : ResourceCollection) (fails : HandlerAwait → Bool) (s : Call)
    (t : Handler) :
    (handlerCall cache fails).Ensures (· ≠ .fail) (· = s.handle cache fails t) s t :=
  ensures_call (fun t => (ResultTask.handler t).rank) (fun s t => s.handle cache fails t)
    (fun _ _ => rfl)
    (fun db t => t.exists_step db cache) handle_of_fails handle_of_step
    (fun h ht => Handler.rank_lt_of_step h ht) s t

end HandlerCall

end SwapiService
