import SwapiService.Origins
import SwapiService.Webhook

/-!
# Queries for a single path

Whether a query is completed is decided by the handlers of its rows, each of which saves
the status first and its own row afterwards.  Two handlers of one query can get in each
other's way.  A query with a single row has a single handler, and nobody else touches
either row: when nothing is in flight any more, it is completed just in case it has a
truthy result, and its callback has been notified once if it has, and never otherwise.  Of
all failures only those of a database can change that.

## Main definitions

* `Database.Sole` — the query has no other row.
* `Creation.Lacks` — a creation stores rows only if it found a path not cached.
* `Stage` — how far the decision about the query has come.

## Main results

* `Reacts.completed_iff` — only a handler about to save the query changes its status.
* `Stage.runs`, `stage_of_run` — what a step, and a run, do to the stage.
* `marks_of_sole` — the query is marked completed once at most.
* `single_path_decided` — the decision is right.
-/

namespace SwapiService

open TaskPool Transition

/-- The query has no row but this one. -/
def Database.Sole (db : Database) (queryId id : Uuid) : Prop :=
  ∀ id' row, db.subqueries.lookup id' = some row → row.queryId = queryId → id' = id

/-- The handler has saved the status of its query, and is about to save its row. -/
def Handler.IsSaving (t : Handler) : Prop :=
  match t.phase with
  | .saveSubquery _ _ _ => True
  | _ => False

/-- A creation that has read the cache has a subquery without a result. -/
def Creation.Lacks (t : Creation) : Prop :=
  (∀ reads, t.phase ≠ .readCache reads) → ∃ e ∈ t.query.subqueries, ¬ e.result.truthy = true

/-- How far the decision about a query with a single row has come: nobody has decided; its
handler has saved the status; or both are saved, and nobody works on the row. -/
inductive Stage (s : Sys) (queryId id : Uuid) : Prop
  | undecided (hpending : ¬ s.store.db.Completed queryId)
      (hnull : ∀ row, s.store.db.subqueries.lookup id = some row → row.result = .null)
      (hnone : ∀ u : Handler, .handler u ∈ s.pool → u.dto.id = id → ¬ u.IsSaving)
  | saving (u : Handler) (hu : .handler u ∈ s.pool) (hid : u.dto.id = id) (hsaving : u.IsSaving)
      (hstatus : s.store.db.Completed queryId ↔ u.dto.result.truthy = true)
  | decided (row : SubqueryRow) (hfree : ∀ u ∈ s.pool, id ∉ u.owned)
      (hrow : s.store.db.subqueries.lookup id = some row)
      (hstatus : s.store.db.Completed queryId ↔ row.result.truthy = true)

/-! ### One segment -/

section Segments

variable {db : Database} {cache : ResourceCollection} {c : Choice}

/-- A creation goes on after its reads only if one of them found nothing. -/
theorem Creation.lacks_of_fires {query : QueryEntity} {phase : CreationPhase}
    {e : Effect Creation} (hlacks : (⟨query, phase⟩ : Creation).Lacks)
    (h : Fires db cache query phase c e) {t : Creation} (ht : e.outcome = .suspended t) :
    t.Lacks := by
  cases h with
  | rejects => cases ht
  | hit => cases ht
  | refusedQuery => cases ht
  | unsaved => cases ht
  | savedSubqueries => cases ht
  | reads reads reads' j hans =>
    obtain rfl := Outcome.suspended.inj ht
    exact fun hno => absurd rfl (hno reads')
  | miss reads newSubqueries hall hmiss =>
    obtain rfl := Outcome.suspended.inj ht
    intro _
    rw [List.all_eq_true] at hmiss
    push Not at hmiss
    obtain ⟨d, hd, hfalsy⟩ := hmiss
    exact ⟨subqueryOfReply query d, List.mem_map_of_mem hd, hfalsy⟩
  | savedQuery =>
    obtain rfl := Outcome.suspended.inj ht
    exact fun _ => hlacks fun reads hphase => nomatch hphase

/-- Only a save of the query takes a handler to the save of its row. -/
theorem Handler.isSaving_cases {dto : SubqueryDto} {phase : HandlerPhase} {e : Effect Handler}
    (hno : ¬ (⟨dto, phase⟩ : Handler).IsSaving) (h : Fires db cache dto phase c e) :
    (e.db = db ∧ ∀ v, e.outcome = .suspended v → ¬ v.IsSaving) ∨
      (c = .proceed ∧ (⟨dto, phase⟩ : Handler).Saves dto.queryId ∧
        e.db.subqueries = db.subqueries ∧
        ∃ v, e.outcome = .suspended v ∧ v.dto = dto ∧ v.IsSaving) := by
  cases h with
  | savedQuery => exact .inr ⟨rfl, rfl, rfl, _, rfl, rfl, trivial⟩
  | unsaved => exact absurd trivial hno
  | savedSubquery => exact absurd trivial hno
  | rejects => exact .inl ⟨rfl, fun v hv => nomatch hv⟩
  | noSubquery => exact .inl ⟨rfl, fun v hv => nomatch hv⟩
  | noQuery => exact .inl ⟨rfl, fun v hv => nomatch hv⟩
  | _ =>
    refine .inl ⟨rfl, fun v hv => ?_⟩
    obtain rfl := Outcome.suspended.inj hv
    exact id

/-- **The handler of the only row decides from its own result.** -/
theorem Handler.findsAll_iff_of_sole {history : List (Reaction Store Task Choice)}
    {t : Handler} (hrecalls : t.phase.Recalls history db t.dto)
    (hsole : db.Sole t.dto.queryId t.dto.id) (hsaves : t.Saves t.dto.queryId) :
    t.FindsAll ↔ t.dto.result.truthy = true := by
  obtain ⟨dto, phase⟩ := t
  cases phase with
  | saveQuery subquery query cached =>
    obtain ⟨-, -, hcovers⟩ := hrecalls
    refine and_iff_left fun q hq hne => ?_
    -- Every reply is for a row of the query.
    obtain ⟨⟨row, hrow, -, hrq, -⟩, hqid⟩ := hcovers.refers q hq
    exact absurd (hsole q.id row hrow (hrq.trans hqid)) hne
  | _ => exact absurd hsaves id

end Segments

section Reactions

variable {cfg : Settings} {s s' : Store} {t : Task} {c : Choice} {ts : List Task}

/-- **Only a handler about to save the query changes its status.** -/
theorem Reacts.completed_iff (hok : t.Asserts s.db) (hnd : t.owned.Nodup)
    (h : Reacts cfg s t c s' ts) {queryId : Uuid}
    (hsaves : ∀ u, t = .handler u → ¬ (c = .proceed ∧ u.Saves queryId)) :
    s'.db.Completed queryId ↔ s.db.Completed queryId := by
  by_cases hhandler : ∃ u, t = .handler u
  · obtain ⟨u, rfl⟩ := hhandler
    obtain ⟨e, hfires, rfl, -⟩ := h.of_handler
    exact (Handler.completed_of_fires hok.2 hfires queryId).2 (hsaves u rfl)
  · by_cases hcreation : ∃ u, t = .creation u
    · obtain ⟨u, rfl⟩ := hcreation
      obtain ⟨e, hfires, rfl, -⟩ := h.of_creation
      refine ⟨Creation.completed_of_fires hok hnd hfires, fun hcompleted => ?_⟩
      obtain ⟨query, phase⟩ := u
      cases hfires with
      | savedQuery =>
        -- The query it stores was not there before.
        have hne : queryId ≠ query.id := by
          rintro rfl
          obtain ⟨row, hrow, -⟩ := hcompleted
          have hstored := Database.mem_of_lookup hrow
          exact Creation.Ok.unstored hok (fun hphase => nomatch hphase) hstored
        exact (Database.Completed.congr (Database.lookup_saveQuery_ne s.db hne)).mpr hcompleted
      | savedSubqueries db' hsave =>
        obtain ⟨hqueries, -⟩ := Creation.Ok.saved hok hnd hsave
        exact (Database.Completed.congr (congrArg (AList.lookup queryId) hqueries)).mpr hcompleted
      | _ => exact hcompleted
    · rw [h.db_eq (fun u hu => hcreation ⟨u, hu⟩) fun u hu => hhandler ⟨u, hu⟩]

/-- Only its creation gives a query rows, and then one of them is `null`. -/
theorem Creation.null_of_fires {t : Creation} {e : Effect Creation}
    {cache : ResourceCollection} {db : Database} (hok : t.Ok db) (hnd : t.owned.Nodup)
    (hlacks : t.Lacks) (h : Fires db cache t.query t.phase c e) {id : Uuid} {row : SubqueryRow}
    (hnone : db.subqueries.lookup id = none) (hrow : e.db.subqueries.lookup id = some row) :
    t.query.id = row.queryId ∧ ¬ e.db.Completed t.query.id ∧ e.outcome = .resolved ∧
      ∃ id' row', e.db.subqueries.lookup id' = some row' ∧ row'.queryId = t.query.id ∧
        row'.result = .null := by
  obtain ⟨query, phase⟩ := t
  cases h with
  | savedSubqueries db' hsave =>
    obtain ⟨hqueries, hother, hrows⟩ := hok.saved hnd hsave
    have hid : id ∈ query.subqueries.map SubqueryEntity.id := by
      by_contra hid
      rw [hother id hid, hnone] at hrow
      cases hrow
    obtain ⟨q, hq, rfl⟩ := List.mem_map.mp hid
    obtain rfl := Option.some.inj ((hrows q hq).symm.trans hrow)
    obtain ⟨d, hd, hfalsy⟩ := hlacks fun reads hphase => nomatch hphase
    refine ⟨rfl, ?_, rfl, d.id, _, hrows d hd, rfl, (hok.result d hd).resolve_left hfalsy⟩
    rintro ⟨qrow, hqrow, hstatus⟩
    have hstored : db'.queries.lookup query.id = _ :=
      (congrArg (AList.lookup query.id) hqueries).trans (hok.stored rfl)
    obtain rfl := Option.some.inj (hstored.symm.trans hqrow)
    cases hstatus
  | _ =>
    have hold : none = some row := hnone.symm.trans hrow
    cases hold

end Reactions

/-! ### One step -/

section Steps

variable {cfg : Settings} {s s' : Sys} {i : ℕ} {c : Choice} {t : Task} {rest ts : List Task}
  {queryId id : Uuid}

/-- A step that has nothing to do with the row or the status leaves the stage as it is. -/
theorem Stage.frame (h : Stage s queryId id)
    (hrow : s'.store.db.subqueries.lookup id = s.store.db.subqueries.lookup id)
    (hstatus : s'.store.db.Completed queryId ↔ s.store.db.Completed queryId)
    (hpool : ∀ u : Task, id ∈ u.owned → (u ∈ s'.pool ↔ u ∈ s.pool)) : Stage s' queryId id := by
  cases h with
  | undecided hpending hnull hnone =>
    refine .undecided (fun hcompleted => hpending (hstatus.mp hcompleted)) ?_ ?_
    · rw [hrow]
      exact hnull
    · intro u hu hid
      have hown : id ∈ (Task.handler u).owned := List.mem_singleton.mpr hid.symm
      exact hnone u ((hpool _ hown).mp hu) hid
  | saving u hu hid hsaving hdecides =>
    have hown : id ∈ (Task.handler u).owned := List.mem_singleton.mpr hid.symm
    exact .saving u ((hpool _ hown).mpr hu) hid hsaving (hstatus.trans hdecides)
  | decided row hfree hlookup hdecides =>
    refine .decided row (fun u hu hown => ?_) (hrow.trans hlookup) (hstatus.trans hdecides)
    exact hfree u ((hpool u hown).mp hu) hown

/-- A task that works on the row, but has not saved the status, finds nothing decided. -/
theorem Stage.undecided_of_owner (hI : (discipline cfg).Inv s) (h : Stage s queryId id)
    (ht : t ∈ s.pool) (hid : id ∈ t.owned)
    (hno : ∀ u, t = .handler u → ¬ u.IsSaving) : ¬ s.store.db.Completed queryId ∧
      ∀ row, s.store.db.subqueries.lookup id = some row → row.result = .null := by
  cases h with
  | undecided hpending hnull hnone => exact ⟨hpending, hnull⟩
  | saving u hu hown hsaving hstatus =>
    obtain rfl : t = .handler u := hI.eq_of_owned ht hu hid (List.mem_singleton.mpr hown.symm)
    exact absurd hsaving (hno u rfl)
  | decided row hfree hrow hstatus => exact absurd hid (hfree t ht)

/-- After a segment of a handler, only what is left of the handler works on its row. -/
theorem mem_pool_of_handler (hI : (discipline cfg).Inv s) {u : Handler}
    (hr : (system cfg).Runs s i c s' (.handler u) rest ts) :
    ∃ e, Handler.Fires s.store.db s.store.cache u.dto u.phase c e ∧ s'.store.db = e.db ∧
      ∀ v : Task, u.dto.id ∈ v.owned → (v ∈ s'.pool ↔ v ∈ e.outcome.tasks Task.handler) := by
  have hreacts : Reacts cfg s.store (.handler u) c s'.store ts := reacts_of_react hr.react
  obtain ⟨e, hfires, hstore, rfl⟩ := hreacts.of_handler
  refine ⟨e, hfires, by rw [hstore]; rfl, fun v hown => ?_⟩
  have htasks : e.tasks Task.handler = e.outcome.tasks Task.handler := by
    rw [Effect.tasks, Handler.emitted_of_fires hfires]
    rfl
  obtain ⟨-, -, hdis⟩ := hI.owned_runs hr
  rw [hr.mem_pool', htasks]
  refine or_iff_right fun hv => ?_
  exact hdis (List.mem_singleton_self _) (List.mem_flatMap.mpr ⟨v, hv, hown⟩)

/-- **The handler of the only row saves its status**, from its own result alone. -/
theorem Stage.runs_unsaved (hI : (discipline cfg).Inv s)
    {history : List (Reaction Store Task Choice)} {u : Handler}
    (hrecalls : u.phase.Recalls history s.store.db u.dto)
    (hsole : s.store.db.Sole u.dto.queryId u.dto.id)
    (hr : (system cfg).Runs s i c s' (.handler u) rest ts) (hsaving : ¬ u.IsSaving)
    (h : Stage s u.dto.queryId u.dto.id) : Stage s' u.dto.queryId u.dto.id := by
  obtain ⟨e, hfires, hdb', hpool⟩ := mem_pool_of_handler hI hr
  have hok := (hI.ok _ hr.mem).2
  obtain ⟨hpending, hnull⟩ := h.undecided_of_owner hI hr.mem (List.mem_singleton_self _)
    fun v hv => Task.handler.inj hv ▸ hsaving
  rcases Handler.isSaving_cases hsaving hfires with
    ⟨hsame, hnext⟩ | ⟨rfl, hsaves, -, v, hv, hdto, hnext⟩
  · rw [hsame] at hdb'
    refine .undecided ?_ ?_ fun v hv hid => ?_
    · rw [hdb']
      exact hpending
    · rw [hdb']
      exact hnull
    · have hmem := (hpool (.handler v) (List.mem_singleton.mpr hid.symm)).mp hv
      cases hout : e.outcome with
      | suspended w =>
        rw [hout] at hmem
        obtain rfl := Task.handler.inj (List.mem_singleton.mp hmem)
        exact hnext v hout
      | resolved => rw [hout] at hmem; cases hmem
      | rejected => rw [hout] at hmem; cases hmem
  · have hid : v.dto.id = u.dto.id := congrArg SubqueryDto.id hdto
    have hmem : .handler v ∈ s'.pool := by
      rw [hpool (.handler v) (List.mem_singleton.mpr hid.symm), hv]
      exact List.mem_singleton_self _
    refine .saving v hmem hid hnext ?_
    rw [hdb', hdto, (Handler.completed_of_fires hok.2 hfires _).1 ⟨rfl, hsaves⟩]
    exact Handler.findsAll_iff_of_sole hrecalls hsole hsaves

/-- **It then saves its row**, and is gone. -/
theorem Stage.runs_saving (hI : (discipline cfg).Inv s) {u : Handler}
    (hr : (system cfg).Runs s i c s' (.handler u) rest ts) (hdb : ¬ DatabaseFails s (.run i c))
    (hsaving : u.IsSaving) (h : Stage s u.dto.queryId u.dto.id) :
    Stage s' u.dto.queryId u.dto.id := by
  obtain ⟨e, hfires, hdb', hpool⟩ := mem_pool_of_handler hI hr
  have hok := (hI.ok _ hr.mem).2
  have hstatus : s.store.db.Completed u.dto.queryId ↔ u.dto.result.truthy = true := by
    cases h with
    | undecided _ _ hnone => exact absurd hsaving (hnone u hr.mem rfl)
    | saving v hv hown _ hstatus =>
      have heq := hI.eq_of_owned hr.mem hv (List.mem_singleton_self _)
        (List.mem_singleton.mpr hown.symm)
      obtain rfl := Task.handler.inj heq
      exact hstatus
    | decided _ hfree _ _ => exact absurd (List.mem_singleton_self _) (hfree _ hr.mem)
  obtain ⟨dto, phase⟩ := u
  cases hfires with
  | savedSubquery subquery updated latest db' hsave =>
    obtain ⟨hqueries, -, hown⟩ := hok.2.saved hsave
    refine .decided ⟨dto.path, dto.queryId, dto.result⟩ (fun v hv hmem => ?_) ?_ ?_
    · exact nomatch (hpool v hmem).mp hv
    · rw [hdb']
      exact hown
    · rw [hdb']
      exact (Database.Completed.congr (congrArg (AList.lookup dto.queryId) hqueries)).trans hstatus
  | unsaved subquery updated latest hnone =>
    obtain ⟨db', hsave⟩ := hok.2.finds.2.2 rfl
    rw [hnone] at hsave
    cases hsave
  | rejects =>
    refine absurd ⟨_, hr.get, fun subquery query reads hphase => ?_⟩ hdb
    obtain rfl : phase = _ := hphase
    exact hsaving
  | _ => exact absurd hsaving id

/-- **What a reaction does to the stage.** -/
theorem Stage.runs (hI : (discipline cfg).Inv s) {history : List (Reaction Store Task Choice)}
    (hrecalls : ∀ u, t = .handler u → u.phase.Recalls history s.store.db u.dto)
    (hr : (system cfg).Runs s i c s' t rest ts) (hdb : ¬ DatabaseFails s (.run i c))
    {row : SubqueryRow} (hrow : s.store.db.subqueries.lookup id = some row)
    (hsole : s.store.db.Sole row.queryId id) (h : Stage s row.queryId id) :
    Stage s' row.queryId id := by
  have hreacts : Reacts cfg s.store t c s'.store ts := reacts_of_react hr.react
  have hok := (hI.ok t hr.mem).2
  obtain ⟨hnd, -, hdis⟩ := hI.owned_runs hr
  have hown_iff : ∀ u, t = .handler u → (u.dto.queryId = row.queryId ↔ u.dto.id = id) := by
    rintro u rfl
    obtain ⟨own, hown, -, hq, -⟩ := hok.1
    constructor
    · exact fun hquery => hsole u.dto.id own hown (hq.trans hquery)
    · intro hid
      rw [hid, hrow] at hown
      obtain rfl := Option.some.inj hown
      exact hq.symm
  by_cases hid : id ∈ t.owned
  · by_cases hhandler : ∃ u, t = .handler u
    · obtain ⟨u, rfl⟩ := hhandler
      obtain rfl : id = u.dto.id := List.mem_singleton.mp hid
      have hq := (hown_iff u rfl).mpr rfl
      rw [← hq] at hsole h ⊢
      by_cases hsaving : u.IsSaving
      · exact h.runs_saving hI hr hdb hsaving
      · exact h.runs_unsaved hI (hrecalls u rfl) hsole hr hsaving
    · have hother : ∀ u, t ≠ .handler u := fun u hu => hhandler ⟨u, hu⟩
      have hcreation : ∀ u, t ≠ .creation u := by
        rintro u rfl
        exact Creation.Ok.fresh hok id hid (Database.mem_of_lookup hrow)
      obtain ⟨hpending, hnull⟩ :=
        h.undecided_of_owner hI hr.mem hid fun u hu => absurd hu (hother u)
      have hsame := hreacts.db_eq hcreation hother
      refine .undecided ?_ ?_ fun u hu hown => ?_
      · rw [hsame]
        exact hpending
      · rw [hsame]
        exact hnull
      · rcases hr.mem_pool'.mp hu with hu | hu
        · refine absurd (List.mem_flatMap.mpr ⟨_, hu, ?_⟩) (hdis hid)
          exact List.mem_singleton.mpr hown.symm
        · -- A handler that has just been started.
          have hphase : u.phase = .findSubquery := hreacts.notUnderWay hother _ hu
          rw [Handler.IsSaving, hphase]
          exact not_false
  · refine h.frame ((hreacts.frame hok hnd).other id hid) ?_ fun u hown => ?_
    · refine hreacts.completed_iff hok hnd fun u hu hall => hid ?_
      subst hu
      exact List.mem_singleton.mpr ((hown_iff u rfl).mp hall.2.queryId_eq).symm
    · rw [hr.mem_pool', hr.pool.mem_iff, List.mem_cons]
      constructor
      · rintro (hu | hu)
        · exact .inr hu
        · exact absurd ((hreacts.owned hok hnd).2 (List.mem_flatMap.mpr ⟨u, hu, hown⟩)) hid
      · rintro (rfl | hu)
        · exact absurd hown hid
        · exact .inl hu

/-- **A new row starts undecided**, unless the query has another one. -/
theorem stage_of_new (hI : (discipline cfg).Inv s)
    (hlacks : ∀ u, t = .creation u → u.Lacks) (hr : (system cfg).Runs s i c s' t rest ts)
    (hnone : s.store.db.subqueries.lookup id = none) {row : SubqueryRow}
    (hrow : s'.store.db.subqueries.lookup id = some row)
    (hsole : s'.store.db.Sole row.queryId id) : Stage s' row.queryId id := by
  have hreacts : Reacts cfg s.store t c s'.store ts := reacts_of_react hr.react
  have hok := (hI.ok t hr.mem).2
  have hnd := (hI.owned_runs hr).1
  have hcreation : ∃ u, t = .creation u := by
    by_contra hno
    have hsame : s'.store.db.subqueries.lookup id = s.store.db.subqueries.lookup id := by
      by_cases hhandler : ∃ u, t = .handler u
      · -- The row of a handler is there already.
        obtain ⟨u, rfl⟩ := hhandler
        refine (hreacts.frame hok hnd).other id fun hmem => ?_
        obtain ⟨⟨own, hown, -⟩, -⟩ := hok
        obtain rfl : id = u.dto.id := List.mem_singleton.mp hmem
        rw [hnone] at hown
        cases hown
      · rw [hreacts.db_eq (fun u hu => hno ⟨u, hu⟩) fun u hu => hhandler ⟨u, hu⟩]
    rw [hsame, hnone] at hrow
    cases hrow
  obtain ⟨u, rfl⟩ := hcreation
  obtain ⟨e, hfires, hstore, rfl⟩ := hreacts.of_creation
  have hdb : s'.store.db = e.db := by rw [hstore]; rfl
  rw [hdb] at hrow hsole
  obtain ⟨hq, hpending, hout, id', row', hrow', hq', hnull⟩ :=
    Creation.null_of_fires hok hnd (hlacks u rfl) hfires hnone hrow
  obtain rfl : id' = id := hsole id' row' hrow' (hq'.trans hq)
  obtain rfl := Option.some.inj (hrow.symm.trans hrow')
  refine .undecided ?_ (fun row'' hrow'' => ?_) fun v hv hid => ?_
  · rw [hdb, ← hq]
    exact hpending
  · rw [hdb] at hrow''
    obtain rfl := Option.some.inj (hrow.symm.trans hrow'')
    exact hnull
  · rcases hr.mem_pool'.mp hv with hv | hv
    · obtain ⟨⟨own, hown, -⟩, -⟩ := (hI.ok _ (hr.mem_of_rest hv)).2
      rw [hid, hnone] at hown
      cases hown
    · have hphase : v.phase = .findSubquery := hreacts.notUnderWay (fun w hw => nomatch hw) _ hv
      rw [Handler.IsSaving, hphase]
      exact not_false

end Steps

/-! ### Whole runs -/

section Runs

variable {cfg : Settings} {tr : List (Sys × Act Choice EnvAct)} {s s' : Sys} {queryId id : Uuid}

theorem lacks_of_run (h : Run (system cfg).step initial tr s) :
    ∀ u : Creation, .creation u ∈ s.pool → u.Lacks := by
  induction h with
  | nil => exact fun u hu => nomatch hu
  | @snoc tr s s' a h hs ih =>
    intro u hu
    rcases system_step_cases hs with ⟨i, c, t, rest, ts, -, hr, hreacts⟩ | ⟨e, ts, -, hacts, hp⟩
    · rcases hr.mem_pool'.mp hu with hu | hu
      · exact ih u (hr.mem_of_rest hu)
      · obtain ⟨v, rfl, -⟩ := hreacts.creation_cases ((inv_of_reachable ⟨tr, h⟩).ok t hr.mem).2 hu
        obtain ⟨e, hfires, -, rfl⟩ := hreacts.of_creation
        rcases List.mem_append.mp hu with hu | hu
        · obtain ⟨p, -, hp⟩ := List.mem_map.mp hu
          cases hp
        · cases hout : e.outcome with
          | suspended w =>
            rw [hout] at hu
            obtain rfl := Task.creation.inj (List.mem_singleton.mp hu)
            exact Creation.lacks_of_fires (ih v hr.mem) hfires hout
          | resolved => rw [hout] at hu; cases hu
          | rejected => rw [hout] at hu; cases hu
    · rw [hp, List.mem_append] at hu
      rcases hu with hu | hu
      · exact ih u hu
      · refine hacts.forall_tasks (P := fun t => ∀ u, t = .creation u → u.Lacks) ?_ _ hu u rfl
        rintro dto ids queryId v hv
        obtain rfl := Task.creation.inj hv
        exact fun hno => absurd rfl (hno _)

/-- A query has had no more rows before. -/
theorem sole_of_step (h : Run (system cfg).step initial tr s) {a : Act Choice EnvAct}
    (hs : (system cfg).step s a = some s') (hsole : s'.store.db.Sole queryId id) :
    s.store.db.Sole queryId id := by
  intro id' row hrow hq
  obtain ⟨row', hrow', -, hq'⟩ := (grows_step (inv_of_reachable ⟨tr, h⟩) hs).keeps id' row hrow
  exact hsole id' row' hrow' (hq'.trans hq)

/-- **Every single row has its stage**, in every run in which no database fails. -/
theorem stage_of_run (h : Run (system cfg).step initial tr s)
    (hdb : ∀ p ∈ tr, ¬ DatabaseFails p.1 p.2) {row : SubqueryRow}
    (hrow : s.store.db.subqueries.lookup id = some row)
    (hsole : s.store.db.Sole row.queryId id) : Stage s row.queryId id := by
  induction h generalizing row with
  | nil => cases hrow
  | @snoc tr s s' a h hs ih =>
    have ih := @ih fun p hp => hdb p (List.mem_append_left _ hp)
    have hI := inv_of_reachable ⟨tr, h⟩
    have hsole₀ := sole_of_step h hs hsole
    rcases system_step_cases hs with ⟨i, c, t, rest, ts, rfl, hr, hreacts⟩ | ⟨e, ts, rfl, hacts, hp⟩
    · cases hrow₀ : s.store.db.subqueries.lookup id with
      | none =>
        exact stage_of_new hI (fun u hu => lacks_of_run h u (hu ▸ hr.mem)) hr hrow₀ hrow hsole
      | some row₀ =>
        -- The row was there before, and belonged to the same query.
        have hnd := (hI.owned_runs hr).1
        obtain ⟨row', hrow', -, hq⟩ := (hreacts.frame (hI.ok t hr.mem).2 hnd).keeps id row₀ hrow₀
        obtain rfl := Option.some.inj (hrow.symm.trans hrow')
        rw [hq] at hsole₀ ⊢
        have hrecalls : ∀ u, t = .handler u → u.phase.Recalls (reactions tr) s.store.db u.dto := by
          rintro u rfl
          exact (handlerHistory cfg).asserts_of_run h (inv_initial cfg) rfl _ hr.mem
        exact (ih hrow₀ hsole₀).runs hI hrecalls hr (hdb (s, .run i c) (by simp)) hrow₀ hsole₀
    · rw [hacts.db] at hrow
      refine (ih hrow hsole₀).frame ?_ ?_ fun u hown => ?_
      · rw [hacts.db]
      · rw [hacts.db]
      · rw [hp, List.mem_append]
        refine or_iff_left fun hu => ?_
        have hdrawn := hI.good.subqueriesDrawn id (Database.mem_of_lookup hrow)
        exact hacts.owned.2 id (List.mem_flatMap.mpr ⟨u, hu, hown⟩) hdrawn

/-- A handler that is about to save the query of a single row finds nothing decided. -/
theorem not_completed_of_saves (h : Run (system cfg).step initial tr s)
    (hdb : ∀ p ∈ tr, ¬ DatabaseFails p.1 p.2) (hsole : s.store.db.Sole queryId id) {u : Handler}
    (hu : .handler u ∈ s.pool) (hsaves : u.Saves queryId) : ¬ s.store.db.Completed queryId := by
  have hI := inv_of_reachable ⟨tr, h⟩
  obtain ⟨⟨row, hrow, -, hq, -⟩, -⟩ := (hI.ok _ hu).2
  obtain rfl : u.dto.queryId = queryId := hsaves.queryId_eq
  obtain rfl : u.dto.id = id := hsole _ row hrow hq
  rw [← hq] at hsole ⊢
  refine ((stage_of_run h hdb hrow hsole).undecided_of_owner hI hu
    (List.mem_singleton_self _) fun v hv hsaving => ?_).1
  obtain rfl := Task.handler.inj hv
  obtain ⟨dto, phase⟩ := u
  cases phase with
  | saveQuery subquery query cached => exact hsaving
  | _ => exact hsaves

/-- **The query is marked completed once at most**: the POSTs and the handlers about to send
one are one together if it is completed, and none otherwise. -/
theorem marks_of_sole {url : String} (h : Run (system cfg).step initial tr s)
    (hdb : ∀ p ∈ tr, ¬ DatabaseFails p.1 p.2) (hsole : s.store.db.Sole queryId id)
    (hcb : ∀ row, s.store.db.queries.lookup queryId = some row → row.callbackUrl = some url)
    (hurl : url ≠ "") :
    (s.store.db.Completed queryId → notified s queryId url + waiting s queryId = 1) ∧
      (¬ s.store.db.Completed queryId → notified s queryId url + waiting s queryId = 0) := by
  induction h with
  | nil =>
    refine ⟨?_, fun _ => rfl⟩
    rintro ⟨row, hrow, -⟩
    cases hrow
  | @snoc tr s s' a h hs ih =>
    have hI := inv_of_reachable ⟨tr, h⟩
    have hdb₀ : ∀ p ∈ tr, ¬ DatabaseFails p.1 p.2 := fun p hp => hdb p (List.mem_append_left _ hp)
    have hsole₀ := sole_of_step h hs hsole
    -- The callback of a query never changes.
    have hcb₀ : ∀ row, s.store.db.queries.lookup queryId = some row →
        row.callbackUrl = some url := by
      intro row hrow
      obtain ⟨row', hrow', hsame⟩ := (grows_step hI hs).query queryId row hrow
      rw [← hsame]
      exact hcb row' hrow'
    obtain ⟨hone, hzero⟩ := ih hdb₀ hsole₀ hcb₀
    obtain ⟨hadds, hkeeps⟩ := marks_step hI hcb₀ hurl (hdb (s, a) (by simp)) hs
    obtain ⟨hcompletes, hcompleted⟩ := completed_step_of queryId hI hs
    by_cases hc : CompletesQuery queryId s a
    · have hpending : ¬ s.store.db.Completed queryId := by
        cases a with
        | env e => exact absurd hc not_false
        | run i c =>
          cases c with
          | proceed =>
            obtain ⟨u, hu, hq, hfinds⟩ := hc
            exact not_completed_of_saves h hdb₀ hsole₀ (List.mem_of_getElem? hu) (hfinds.saves hq)
          | _ => exact absurd hc not_false
      rw [hadds hc, hzero hpending]
      exact ⟨fun _ => rfl, fun hno => absurd (hcompletes hc) hno⟩
    · -- Otherwise its status stays as it is.
      have hsame : s'.store.db.Completed queryId ↔ s.store.db.Completed queryId := by
        refine ⟨fun hdone => (hcompleted hdone).resolve_right hc, fun hdone => ?_⟩
        rcases system_step_cases hs with ⟨i, c, t, rest, ts, -, hr, hreacts⟩ | ⟨e, ts, -, hacts, -⟩
        · refine (hreacts.completed_iff (hI.ok t hr.mem).2 (hI.owned_runs hr).1 ?_).mpr hdone
          rintro u rfl ⟨-, hsaves⟩
          exact not_completed_of_saves h hdb₀ hsole₀ hr.mem hsaves hdone
        · rwa [hacts.db]
      rw [hkeeps hc, hsame]
      exact ⟨hone, hzero⟩

/-- **A query for a single path is decided right.**  In every run in which no database
fails, once nothing is in flight a query that shows one subquery is completed just in case
it shows a truthy result; and its callback has been notified once then, and never
otherwise. -/
theorem single_path_decided (h : Run (system cfg).step initial tr s)
    (hdb : ∀ p ∈ tr, ¬ DatabaseFails p.1 p.2) (hq : s.pool = []) {d : SubqueryDto}
    (hpoll : (fetchQueryResultsAsync s.store.db queryId).subqueries = [d]) :
    ((fetchQueryResultsAsync s.store.db queryId).status = .COMPLETED ↔
        d.result.truthy = true) ∧
      ∀ url, (fetchQueryResultsAsync s.store.db queryId).callbackUrl = some url → url ≠ "" →
        notified s queryId url = if d.result.truthy = true then 1 else 0 := by
  obtain ⟨hmem, -, hrow⟩ := mem_fetchQueryResultsAsync.mp (hpoll ▸ List.mem_singleton_self d)
  obtain ⟨qrow, hqrow⟩ := Database.exists_lookup hmem
  obtain ⟨-, hstatus, hcb, -⟩ := fetchQueryResultsAsync_of_row hqrow
  have hsole : s.store.db.Sole queryId d.id := by
    intro id' row hrow' hid
    have hcovers := (coversRows_fetch hqrow).covers id' row hrow' hid
    rw [hpoll] at hcovers
    exact List.mem_singleton.mp hcovers
  have hcompleted : s.store.db.Completed queryId ↔ d.result.truthy = true := by
    cases stage_of_run h hdb hrow hsole with
    | undecided hpending hnull _ =>
      refine iff_of_false hpending fun ht => Json.ne_null_of_truthy ht ?_
      exact hnull _ hrow
    | saving u hu _ _ _ =>
      rw [hq] at hu
      cases hu
    | decided row _ hrow' hdecides =>
      obtain rfl := Option.some.inj (hrow.symm.trans hrow')
      exact hdecides
  constructor
  · rw [hstatus, ← hcompleted]
    refine ⟨fun hdone => ⟨qrow, hqrow, hdone⟩, ?_⟩
    rintro ⟨row, hrow', hdone⟩
    obtain rfl := Option.some.inj (hqrow.symm.trans hrow')
    exact hdone
  · intro url hcallback hurl
    have hcb' : ∀ row, s.store.db.queries.lookup queryId = some row →
        row.callbackUrl = some url := by
      intro row hrow'
      obtain rfl := Option.some.inj (hqrow.symm.trans hrow')
      exact hcb.symm.trans hcallback
    obtain ⟨hone, hzero⟩ := marks_of_sole h hdb hsole hcb' hurl
    have hwaiting : waiting s queryId = 0 := by
      rw [waiting, hq]
      rfl
    rw [hwaiting, Nat.add_zero, hcompleted] at hone hzero
    split_ifs with ht
    · exact hone ht
    · exact hzero ht

end Runs

/-- What is left to do for a query for one path: its result is cached, and the usage is
logged. -/
def lastTasks : List (Act Choice EnvAct) :=
  [.run 1 .proceed, .run 1 .proceed, .run 1 .proceed, .run 0 .proceed, .run 0 (.draw ⟨2⟩),
    .run 0 .proceed]

/-- It is completed, and its callback has been notified once. -/
theorem single_path_decided_lastTasks :
    ∃ s : Sys, (fetchQueryResultsAsync s.store.db ⟨1⟩).status = .COMPLETED ∧
      notified s ⟨1⟩ "http://localhost:3000" = 1 := by
  have hexec : (exec (system ⟨1, "http://swapi", some⟩).step initial
      (firstResult ++ firstSave ++ lastTasks)).any (fun s =>
        s.pool = [] ∧
          (fetchQueryResultsAsync s.store.db ⟨1⟩).subqueries
            = [⟨⟨0⟩, "people/1", ⟨1⟩, .structured "\x7b\x7d"⟩] ∧
          (fetchQueryResultsAsync s.store.db ⟨1⟩).callbackUrl
            = some "http://localhost:3000") = true := by
    decide +kernel
  have hfault : ∀ a ∈ firstResult ++ firstSave ++ lastTasks, faultless a = true := by decide
  obtain ⟨tr, s, hrun, htr, hp⟩ := exists_run_of_exec _ hexec
  obtain ⟨hpool, hpoll, hcb⟩ := of_decide_eq_true hp
  rw [← htr, List.forall_mem_map] at hfault
  obtain ⟨hstatus, hnotified⟩ := single_path_decided hrun
    (fun p hp => not_databaseFails_of_faultless (hfault p hp)) hpool hpoll
  exact ⟨s, hstatus.mpr rfl, hnotified _ hcb (by decide)⟩

end SwapiService
