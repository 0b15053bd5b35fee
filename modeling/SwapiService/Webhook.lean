import SwapiService.ResultHandling

/-!
# The callback

Nothing records that a callback was sent.  A handler that finds all results marks its
query completed, saves its row and notifies; every handler that does so notifies.  So
the number of POSTs, together with the handlers that are about to send one, is the
number of times the query was marked completed.

## Main definitions

* `notified`, `waiting` — the POSTs of a query, and the handlers about to send one.
* `CompletesQuery` — a handler with all results saves the query.
* `CompletesFirst` — it does so only before the query's first POST.
* `DatabaseFails` — a call to a database fails.

## Main results

* `marks_step` — what a step adds to `notified` and `waiting`.
* `notified_once` — the condition.
* `notified_twice` — a run with two POSTs.
-/

namespace SwapiService

open TaskPool Transition

/-! ### Counting notifications -/

/-- A POST to the callback `url` for the query. -/
def Notification.isFor (queryId : Uuid) (url : String) (p : Notification) : Bool :=
  p.url = url ∧ p.body.id = .uuid queryId

/-- How often the query's callback was notified. -/
def notified (s : Sys) (queryId : Uuid) (url : String) : ℕ :=
  s.store.posts.countP (Notification.isFor queryId url)

/-- A handler has marked its query completed and has yet to save its row and notify. -/
def Handler.isWaiting (queryId : Uuid) (t : Handler) : Bool :=
  match t.phase with
  | .saveSubquery _ updatedQuery _ => t.dto.queryId = queryId ∧ updatedQuery.status = .COMPLETED
  | _ => false

def Task.isWaiting (queryId : Uuid) : Task → Bool
  | .handler t => t.isWaiting queryId
  | _ => false

/-- How many handlers are about to notify the query's callback. -/
def waiting (s : Sys) (queryId : Uuid) : ℕ := s.pool.countP (Task.isWaiting queryId)

/-- The action lets a handler of the query that holds all results save it. -/
def CompletesQuery (queryId : Uuid) (s : Sys) : Act Choice EnvAct → Prop
  | .run i .proceed =>
      ∃ t : Handler, s.pool[i]? = some (.handler t) ∧ t.dto.queryId = queryId ∧ t.FindsAll
  | _ => False

/-- If the action does so, then nobody was notified yet, and no other handler of the
query is about to notify. -/
def CompletesFirst (queryId : Uuid) (url : String) (s : Sys) (a : Act Choice EnvAct) : Prop :=
  CompletesQuery queryId s a →
    (∀ p ∈ s.store.posts, ¬ p.isFor queryId url = true) ∧
      ∀ t : Handler, .handler t ∈ s.pool → ¬ t.isWaiting queryId = true

/-- A task awaits a call to a database. -/
def Task.awaitsDatabase : Task → Prop
  | .creation t => ∀ reads, t.phase ≠ .readCache reads
  | .handler t => ∀ subquery query reads, t.phase ≠ .readCache subquery query reads
  | .updater _ => True
  | _ => False

/-- The action makes such a call fail. -/
def DatabaseFails (s : Sys) : Act Choice EnvAct → Prop
  | .run i .fail => ∃ t, s.pool[i]? = some t ∧ t.awaitsDatabase
  | _ => False

theorem completesQuery_run_iff {queryId : Uuid} {s : Sys} {i : ℕ} {c : Choice} {t : Task}
    (h : s.pool[i]? = some t) : CompletesQuery queryId s (.run i c) ↔
      c = .proceed ∧ ∃ u, t = .handler u ∧ u.dto.queryId = queryId ∧ u.FindsAll := by
  cases c with
  | proceed => simp [CompletesQuery, h]
  | _ => simp [CompletesQuery]

/-- First completions, in terms of the two counts. -/
theorem completesFirst_iff {queryId : Uuid} {url : String} {s : Sys} {a : Act Choice EnvAct} :
    CompletesFirst queryId url s a ↔
      (CompletesQuery queryId s a → notified s queryId url + waiting s queryId = 0) := by
  refine imp_congr_right fun _ => ?_
  rw [Nat.add_eq_zero_iff, notified, waiting, List.countP_eq_zero, List.countP_eq_zero]
  refine and_congr_right fun _ => ⟨fun h t ht => ?_, fun h t ht => h _ ht⟩
  cases t with
  | handler t => exact h t ht
  | _ => simp [Task.isWaiting]

/-! ### One step -/

section Steps

variable {queryId : Uuid} {url : String}

/-- **What a segment of a handler adds to the two counts.** -/
theorem Handler.marks_of_fires {db : Database} {cache : ResourceCollection} {t : Handler}
    {c : Choice} {e : Effect Handler} (hok : t.Ok db)
    (hcb : ∀ row, db.queries.lookup queryId = some row → row.callbackUrl = some url)
    (hurl : url ≠ "") (hc : c = .fail → ∃ subquery query reads,
      t.phase = .readCache subquery query reads)
    (h : Fires db cache t.dto t.phase c e) :
    ((c = .proceed ∧ t.dto.queryId = queryId ∧ t.FindsAll) →
      e.posts.countP (Notification.isFor queryId url) +
          (e.outcome.tasks Task.handler).countP (Task.isWaiting queryId)
        = [Task.handler t].countP (Task.isWaiting queryId) + 1) ∧
      (¬ (c = .proceed ∧ t.dto.queryId = queryId ∧ t.FindsAll) →
        e.posts.countP (Notification.isFor queryId url) +
            (e.outcome.tasks Task.handler).countP (Task.isWaiting queryId)
          = [Task.handler t].countP (Task.isWaiting queryId)) := by
  obtain ⟨dto, phase⟩ := t
  obtain ⟨-, -, hsaves⟩ := hok.finds
  cases h with
  | rejects =>
    obtain ⟨subquery, query, reads, rfl⟩ := hc rfl
    simp [Task.isWaiting, Handler.isWaiting]
  | noSubquery => simp [Task.isWaiting, Handler.isWaiting, Handler.FindsAll]
  | foundSubquery => simp [Task.isWaiting, Handler.isWaiting, Handler.FindsAll]
  | noQuery => simp [Task.isWaiting, Handler.isWaiting, Handler.FindsAll]
  | foundQuery => simp [Task.isWaiting, Handler.isWaiting, Handler.FindsAll]
  | reads => simp [Task.isWaiting, Handler.isWaiting]
  | replied => simp [Task.isWaiting, Handler.isWaiting, Handler.FindsAll]
  | savedQuery subquery query cached =>
    -- Saving `COMPLETED` makes the handler one that is about to notify.
    obtain ⟨-, -, -, hown⟩ := hok
    have hcompleted : (updatedQuery dto query cached).status = .COMPLETED ↔ _ :=
      status_updatedQuery_iff hown
    have hfinds : (⟨dto, .saveQuery subquery query cached⟩ : Handler).FindsAll ↔
        (updatedQuery dto query cached).status = .COMPLETED := hcompleted.symm
    rw [hfinds]
    by_cases hq : dto.queryId = queryId <;>
      by_cases hs : (updatedQuery dto query cached).status = .COMPLETED <;>
      simp [Task.isWaiting, Handler.isWaiting, hq, hs]
  | unsaved subquery updated latest hnone =>
    obtain ⟨db', hdb'⟩ := hsaves rfl
    rw [hnone] at hdb'
    cases hdb'
  | savedSubquery subquery updated latest db' hsave =>
    -- The POST goes to the stored callback, for the query of the event.
    obtain ⟨-, -, ⟨hid, row, hrow, hrowcb⟩, hlatest⟩ := hok
    refine ⟨fun hall => absurd hall.2.2 id, fun _ => ?_⟩
    by_cases hq : dto.queryId = queryId
    · subst hq
      rw [hid] at hrow
      have hupdated : updated.callbackUrl = some url := hrowcb.symm.trans (hcb row hrow)
      have hfor : Notification.isFor dto.queryId url ⟨url, latest⟩ = true := by
        simp [Notification.isFor, hlatest, hid]
      cases hs : updated.status with
      | COMPLETED =>
        simp [notifications, Task.isWaiting, Handler.isWaiting, hs, hupdated, hurl, hfor]
      | PENDING => simp [notifications, Task.isWaiting, Handler.isWaiting, hs]
    · -- It is for another query.
      have hnone : (notifications updated latest).countP (Notification.isFor queryId url) = 0 := by
        rw [List.countP_eq_zero]
        intro p hp hfor
        have hbody : p.body.id = .uuid queryId := (of_decide_eq_true hfor).2
        rw [body_of_mem_notifications hp, hlatest, ResponseId.uuid.injEq, hid] at hbody
        exact hq hbody
      simp [Task.isWaiting, Handler.isWaiting, hq, hnone]

variable {cfg : Settings} {s s' : Sys} {a : Act Choice EnvAct}

/-- A reaction that is not a handler's changes neither count. -/
theorem Reacts.marks (queryId : Uuid) {st st' : Store} {t : Task} {c : Choice} {ts : List Task}
    (h : Reacts cfg st t c st' ts) (ht : ∀ u, t ≠ .handler u) :
    st'.posts = st.posts ∧ t.isWaiting queryId = false ∧
      ts.countP (Task.isWaiting queryId) = 0 := by
  have hnone : ∀ {us : List Task}, (∀ u ∈ us, u.isWaiting queryId = false) →
      us.countP (Task.isWaiting queryId) = 0 := countP_eq_zero_of_forall
  cases h with
  | @creation t c e h =>
    refine ⟨?_, rfl, hnone (Effect.forall_tasks (fun _ _ => rfl) fun _ _ => rfl)⟩
    have hposts : e.posts = [] := by
      generalize t.phase = phase at h
      cases h <;> rfl
    rw [Effect.store, hposts, List.append_nil]
  | handler h => exact absurd rfl (ht _)
  | scheduleFetch payload => exact ⟨rfl, rfl, hnone (SubqueryPayload.forall_tasks fun _ => rfl)⟩
  | scheduler h => exact ⟨rfl, rfl, hnone (h.forall_tasks rfl (fun _ => rfl) rfl rfl rfl)⟩
  | processor h => exact ⟨rfl, rfl, hnone (h.forall_tasks rfl (fun _ => rfl) rfl rfl rfl)⟩
  | usageLogger hfresh h => exact ⟨rfl, rfl, hnone (Outcome.forall_tasks fun _ _ => rfl)⟩
  | @connector f c effect out h =>
    refine ⟨rfl, rfl, hnone ?_⟩
    obtain ⟨dto, phase⟩ := f
    cases h <;> simp [receiveMessages, Task.isWaiting]
  | receiveToCacheManager dto => exact ⟨rfl, rfl, hnone (Outcome.forall_tasks fun _ _ => rfl)⟩
  | updater h => exact ⟨rfl, rfl, hnone (Outcome.forall_tasks fun _ _ => rfl)⟩
  | _ => exact ⟨rfl, rfl, hnone (by simp [Task.isWaiting, Handler.isWaiting])⟩

/-- **What a step adds to the two counts**: one for every save that completes the
query. -/
theorem marks_step (hI : (discipline cfg).Inv s)
    (hcb : ∀ row, s.store.db.queries.lookup queryId = some row → row.callbackUrl = some url)
    (hurl : url ≠ "") (hdb : ¬ DatabaseFails s a) (hs : (system cfg).step s a = some s') :
    (CompletesQuery queryId s a →
      notified s' queryId url + waiting s' queryId
        = notified s queryId url + waiting s queryId + 1) ∧
      (¬ CompletesQuery queryId s a →
        notified s' queryId url + waiting s' queryId
          = notified s queryId url + waiting s queryId) := by
  rcases system_step_cases hs with ⟨i, c, t, rest, ts, rfl, hr, hreacts⟩ | ⟨e, ts, rfl, hacts, hp⟩
  · have hbefore := hr.countP_pool (Task.isWaiting queryId)
    have hafter := hr.countP_pool' (Task.isWaiting queryId)
    by_cases ht : ∃ u, t = .handler u
    · obtain ⟨u, rfl⟩ := ht
      obtain ⟨e, hfires, hstore, rfl⟩ := hreacts.of_handler
      have hok : u.Ok s.store.db := (hI.ok _ hr.mem).2.2
      -- With no database failure, it can only fail while it reads the cache.
      have hc : c = .fail → ∃ subquery query reads,
          u.phase = .readCache subquery query reads := by
        rintro rfl
        by_contra hno
        push Not at hno
        exact hdb ⟨_, hr.get, hno⟩
      obtain ⟨hadds, hkeeps⟩ := Handler.marks_of_fires hok hcb hurl hc hfires
      have hposts : notified s' queryId url = notified s queryId url +
          e.posts.countP (Notification.isFor queryId url) := by
        rw [notified, hstore, notified]
        exact List.countP_append
      have htasks : (e.tasks Task.handler).countP (Task.isWaiting queryId)
          = (e.outcome.tasks Task.handler).countP (Task.isWaiting queryId) := by
        rw [Effect.tasks, Handler.emitted_of_fires hfires, List.map_nil, List.nil_append]
      have hcompletes : CompletesQuery queryId s (.run i c) ↔
          c = .proceed ∧ u.dto.queryId = queryId ∧ u.FindsAll := by
        rw [completesQuery_run_iff hr.get]
        simp
      rw [hcompletes, hposts, waiting, waiting, hbefore, hafter, htasks]
      rw [← List.countP_singleton]
      constructor
      · intro hall
        have hmarks := hadds hall
        omega
      · intro hall
        have hmarks := hkeeps hall
        omega
    · obtain ⟨hposts, hw, hts⟩ := hreacts.marks queryId fun u hu => ht ⟨u, hu⟩
      have hno : ¬ CompletesQuery queryId s (.run i c) := by
        rw [completesQuery_run_iff hr.get]
        rintro ⟨-, u, hu, -⟩
        exact ht ⟨u, hu⟩
      refine ⟨fun hall => absurd hall hno, fun _ => ?_⟩
      rw [notified, notified, hposts, waiting, waiting, hbefore, hafter, hw, hts]
      simp
  · have hposts : s'.store.posts = s.store.posts := by
      generalize s'.store = st' at hacts
      cases hacts <;> rfl
    have hts : ts.countP (Task.isWaiting queryId) = 0 :=
      countP_eq_zero_of_forall (hacts.forall_tasks fun _ _ _ => rfl)
    refine ⟨fun hall => absurd hall id, fun _ => ?_⟩
    rw [notified, notified, hposts, waiting, waiting, hp, List.countP_append, hts]
    rfl

/-- A creation completes no query. -/
theorem Creation.completed_of_fires {db : Database} {cache : ResourceCollection} {t : Creation}
    {c : Choice} {e : Effect Creation} (hok : t.Ok db) (hnd : t.owned.Nodup)
    (h : Fires db cache t.query t.phase c e) (hcompleted : e.db.Completed queryId) :
    db.Completed queryId := by
  obtain ⟨query, phase⟩ := t
  cases h with
  | savedQuery =>
    by_cases hq : queryId = query.id
    · -- The query it stores is pending.
      subst hq
      obtain ⟨row, hrow, hstatus⟩ := hcompleted
      have hlookup := Database.lookup_saveQuery db query
      rw [show query.status = .PENDING from hok.status] at hlookup
      rw [show AList.lookup query.id (db.saveQuery query).queries = some row from hrow] at hlookup
      obtain rfl := Option.some.inj hlookup
      cases hstatus
    · exact (Database.Completed.congr (Database.lookup_saveQuery_ne db hq)).mp hcompleted
  | savedSubqueries db' hsave =>
    obtain ⟨hqueries, -⟩ := hok.saved hnd hsave
    exact (Database.Completed.congr (congrArg (AList.lookup queryId) hqueries)).mp hcompleted
  | _ => exact hcompleted

/-- **What completes a query**: a save by a handler that holds all results. -/
theorem completed_step_of (queryId : Uuid) (hI : (discipline cfg).Inv s)
    (hs : (system cfg).step s a = some s') :
    (CompletesQuery queryId s a → s'.store.db.Completed queryId) ∧
      (s'.store.db.Completed queryId →
        s.store.db.Completed queryId ∨ CompletesQuery queryId s a) := by
  rcases system_step_cases hs with ⟨i, c, t, rest, ts, rfl, hr, hreacts⟩ | ⟨e, ts, rfl, hacts, hp⟩
  · have hok := (hI.ok t hr.mem).2
    rw [completesQuery_run_iff hr.get]
    by_cases ht : ∃ u, t = .handler u
    · obtain ⟨u, rfl⟩ := ht
      obtain ⟨e, hfires, hstore, -⟩ := hreacts.of_handler
      have hdb : s'.store.db = e.db := by rw [hstore]; rfl
      obtain ⟨hsaved, hother⟩ := Handler.completed_of_fires hok.2 hfires queryId
      rw [hdb]
      constructor
      · rintro ⟨rfl, v, hv, hq, hfinds⟩
        obtain rfl := Task.handler.inj hv
        exact (hsaved ⟨rfl, hfinds.saves hq⟩).mpr hfinds
      · intro hcompleted
        by_cases hsave : c = .proceed ∧ u.Saves queryId
        · exact .inr ⟨hsave.1, u, rfl, hsave.2.queryId_eq, (hsaved hsave).mp hcompleted⟩
        · exact .inl ((hother hsave).mp hcompleted)
    · refine ⟨fun hall => ?_, fun hcompleted => .inl ?_⟩
      · obtain ⟨-, u, hu, -⟩ := hall
        exact absurd ⟨u, hu⟩ ht
      · by_cases hc : ∃ u, t = .creation u
        · obtain ⟨u, rfl⟩ := hc
          obtain ⟨e, hfires, hstore, -⟩ := hreacts.of_creation
          have hdb : s'.store.db = e.db := by rw [hstore]; rfl
          exact Creation.completed_of_fires hok (hI.owned_runs hr).1 hfires (hdb ▸ hcompleted)
        · rwa [← hreacts.db_eq (fun u hu => hc ⟨u, hu⟩) fun u hu => ht ⟨u, hu⟩]
  · rw [hacts.db]
    exact ⟨fun hall => absurd hall id, fun hcompleted => .inl hcompleted⟩

/-! ### Whole runs -/

/-- **The two counts at the end of a run**: at most one together just in case every
completion was the first, and at least one just in case there was one. -/
theorem marks_of_run {tr : List (Sys × Act Choice EnvAct)} (h : Run (system cfg).step initial tr s)
    (hdb : ∀ p ∈ tr, ¬ DatabaseFails p.1 p.2) (hurl : url ≠ "")
    (hcb : ∀ row, s.store.db.queries.lookup queryId = some row → row.callbackUrl = some url) :
    (notified s queryId url + waiting s queryId ≤ 1 ↔
        ∀ p ∈ tr, CompletesFirst queryId url p.1 p.2) ∧
      (0 < notified s queryId url + waiting s queryId ↔
        ∃ t ∈ visited tr s, t.store.db.Completed queryId) := by
  -- Both counts start at zero and only grow together, by one for each completion.
  induction h with
  | nil =>
    have hzero : notified initial queryId url + waiting initial queryId = 0 := rfl
    rw [hzero]
    refine ⟨by simp, iff_of_false (by simp) ?_⟩
    rintro ⟨t, ht, row, hrow, -⟩
    obtain rfl := List.mem_singleton.mp ht
    simp [initial, Database.empty] at hrow
  | @snoc tr s s' a hrun hs ih =>
    have hI := inv_of_reachable ⟨tr, hrun⟩
    -- The callback of a query never changes.
    have hcb₀ : ∀ row, s.store.db.queries.lookup queryId = some row →
        row.callbackUrl = some url := by
      intro row hrow
      obtain ⟨row', hrow', hsame⟩ := (grows_step hI hs).query queryId row hrow
      rw [← hsame]
      exact hcb row' hrow'
    obtain ⟨hle, hpos⟩ := ih (fun p hp => hdb p (List.mem_append_left _ hp)) hcb₀
    obtain ⟨hadds, hkeeps⟩ := marks_step hI hcb₀ hurl (hdb (s, a) (by simp)) hs
    obtain ⟨hcompletes, hcompleted⟩ := completed_step_of queryId hI hs
    have hall : (∀ p ∈ tr ++ [(s, a)], CompletesFirst queryId url p.1 p.2) ↔
        notified s queryId url + waiting s queryId ≤ 1 ∧ CompletesFirst queryId url s a := by
      rw [hle]
      simp only [List.mem_append, List.mem_singleton, or_imp, forall_and, forall_eq]
    have hever : (∃ t ∈ visited (tr ++ [(s, a)]) s', t.store.db.Completed queryId) ↔
        0 < notified s queryId url + waiting s queryId ∨ s'.store.db.Completed queryId := by
      rw [hpos]
      simp only [visited_snoc, List.mem_append, List.mem_singleton, or_and_right, exists_or,
        exists_eq_left]
    rw [hall, hever, completesFirst_iff]
    by_cases hc : CompletesQuery queryId s a
    · have hone := hadds hc
      have hdone := hcompletes hc
      refine ⟨⟨fun hle' => ⟨by omega, fun _ => by omega⟩, fun hfirst => ?_⟩, ?_⟩
      · have hzero := hfirst.2 hc
        omega
      · exact iff_of_true (by omega) (.inr hdone)
    · have hsame := hkeeps hc
      rw [hsame]
      refine ⟨⟨fun hle' => ⟨hle', fun hall => absurd hall hc⟩, fun hfirst => hfirst.1⟩, .inl, ?_⟩
      rintro (hlt | hdone)
      · exact hlt
      · have hbefore := (hcompleted hdone).resolve_right hc
        exact hpos.mpr ⟨s, mem_visited_self tr s, hbefore⟩

/-- The callback of the query is notified at most once along the run; at its end, when
nothing is in flight, exactly once if the query was ever completed, and never
otherwise. -/
structure NotifiedOnce (queryId : Uuid) (url : String) (tr : List (Sys × Act Choice EnvAct))
    (s : Sys) : Prop where
  atMostOnce : ∀ t ∈ visited tr s, notified t queryId url ≤ 1
  once : s.pool = [] → (∃ t ∈ visited tr s, t.store.db.Completed queryId) →
    notified s queryId url = 1
  never : s.pool = [] → (¬ ∃ t ∈ visited tr s, t.store.db.Completed queryId) →
    notified s queryId url = 0

/-- **When the webhook is notified once.**  In every run without database failures, the
callback of a persisted query is notified once if every save that completes the query
comes before its first POST, and before any other handler is about to send one.  For
runs that end with nothing in flight the condition is necessary too. -/
theorem notified_once (cfg : Settings) {tr : List (Sys × Act Choice EnvAct)} {s : Sys}
    (h : Run (system cfg).step initial tr s) (hdb : ∀ p ∈ tr, ¬ DatabaseFails p.1 p.2)
    {queryId : Uuid} {url : String} {row : QueryRow}
    (hrow : s.store.db.queries.lookup queryId = some row) (hcb : row.callbackUrl = some url)
    (hurl : url ≠ "") :
    ((∀ p ∈ tr, CompletesFirst queryId url p.1 p.2) → NotifiedOnce queryId url tr s) ∧
      (s.pool = [] → NotifiedOnce queryId url tr s →
        ∀ p ∈ tr, CompletesFirst queryId url p.1 p.2) := by
  have hcbs : ∀ row', s.store.db.queries.lookup queryId = some row' →
      row'.callbackUrl = some url := by
    intro row' hrow'
    rw [hrow] at hrow'
    obtain rfl := Option.some.inj hrow'
    exact hcb
  obtain ⟨hle, hpos⟩ := marks_of_run h hdb hurl hcbs
  have hwaiting : s.pool = [] → waiting s queryId = 0 := fun hpool => by rw [waiting, hpool]; rfl
  constructor
  · intro hfirst
    have hmarks := hle.mpr hfirst
    refine ⟨fun t ht => ?_, fun hpool hever => ?_, fun hpool hnever => ?_⟩
    · -- A state on the way is the end of a shorter run, with the same callback.
      obtain ⟨tr₁, tr₂, rfl, h₁, h₂⟩ := h.split ht
      have hcbt : ∀ row', t.store.db.queries.lookup queryId = some row' →
          row'.callbackUrl = some url := by
        intro row' hrow'
        obtain ⟨row'', hrow'', hsame⟩ :=
          (grows_of_reachable ⟨_, h₁⟩ ⟨_, h₂⟩).query queryId row' hrow'
        rw [← hsame]
        exact hcbs row'' hrow''
      have hprefix := (marks_of_run h₁ (fun p hp => hdb p (List.mem_append_left _ hp)) hurl
        hcbt).1.mpr fun p hp => hfirst p (List.mem_append_left _ hp)
      omega
    · have hzero := hwaiting hpool
      have hone := hpos.mpr hever
      omega
    · have hzero : ¬ 0 < notified s queryId url + waiting s queryId := fun hlt =>
        hnever (hpos.mp hlt)
      omega
  · intro hpool hnotified
    have hzero := hwaiting hpool
    have hone := hnotified.atMostOnce s (mem_visited_self tr s)
    exact hle.mp (by omega)

end Steps

/-- Two paths, both fetched and cached before the first result is handled: either
handler finds all results. -/
def bothCached : List (Act Choice EnvAct) :=
  [.env (.create ⟨["people/1", "planets/1"], some "http://localhost:3000"⟩ [⟨0⟩, ⟨1⟩] ⟨2⟩),
    .run 0 (.read 0), .run 0 (.read 1), .run 0 .proceed, .run 0 .proceed, .run 0 .proceed,
    -- Both are admitted and fetched.
    .run 0 .proceed, .run 0 .proceed, .run 0 .proceed, .run 0 .proceed, .run 0 .proceed,
    .run 0 .proceed, .run 0 .proceed, .run 1 .proceed, .run 2 .proceed, .run 2 .proceed,
    .run 2 (.body (.structured "\x7b\x7d")), .run 2 (.body (.structured "\x7b\x7d")),
    -- Both are logged and cached.
    .run 0 .proceed, .run 0 .proceed, .run 4 (.draw ⟨3⟩), .run 4 (.draw ⟨4⟩), .run 4 .proceed,
    .run 4 .proceed, .run 1 .proceed, .run 2 .proceed, .run 2 .proceed, .run 2 .proceed,
    .run 2 .proceed, .run 2 .proceed,
    -- One is handled after the other.
    .run 0 .proceed, .run 1 .proceed, .run 1 .proceed, .run 1 (.read 0), .run 1 (.read 1),
    .run 1 .proceed, .run 1 .proceed, .run 1 .proceed, .run 0 .proceed, .run 0 .proceed,
    .run 0 .proceed, .run 0 (.read 0), .run 0 (.read 1), .run 0 .proceed, .run 0 .proceed,
    .run 0 .proceed]

theorem not_databaseFails_of_faultless {s : Sys} {a : Act Choice EnvAct}
    (h : faultless a = true) : ¬ DatabaseFails s a := by
  cases a with
  | env e => exact id
  | run i c =>
    cases c with
    | fail => exact absurd h Bool.false_ne_true
    | _ => exact id

/-- **A webhook that is notified twice**, one handler after the other. -/
theorem notified_twice :
    ∃ tr s, Run (system ⟨2, "http://swapi", some⟩).step initial tr s ∧
      (∀ p ∈ tr, ¬ DatabaseFails p.1 p.2) ∧ s.pool = [] ∧
      s.store.db.queries.lookup ⟨2⟩ = some ⟨some "http://localhost:3000", .COMPLETED⟩ ∧
      notified s ⟨2⟩ "http://localhost:3000" = 2 := by
  have hexec : (exec (system ⟨2, "http://swapi", some⟩).step initial bothCached).any (fun s =>
      s.pool = [] ∧
        s.store.db.queries.lookup ⟨2⟩ = some ⟨some "http://localhost:3000", .COMPLETED⟩ ∧
        notified s ⟨2⟩ "http://localhost:3000" = 2) = true := by
    decide +kernel
  have hfault : ∀ a ∈ bothCached, faultless a = true := by decide
  obtain ⟨tr, s, hrun, htr, hp⟩ := exists_run_of_exec _ hexec
  rw [← htr, List.forall_mem_map] at hfault
  exact ⟨tr, s, hrun, fun p hp => not_databaseFails_of_faultless (hfault p hp),
    of_decide_eq_true hp⟩

instance (t : Handler) : Decidable t.FindsAll :=
  match t with
  | ⟨dto, .saveQuery _ _ cached⟩ =>
      inferInstanceAs (Decidable (dto.result.truthy = true ∧
        ∀ q ∈ cached, q.id ≠ dto.id → q.result.truthy = true))
  | ⟨_, .findSubquery⟩ => .isFalse id
  | ⟨_, .findQuery _⟩ => .isFalse id
  | ⟨_, .readCache _ _ _⟩ => .isFalse id
  | ⟨_, .saveSubquery _ _ _⟩ => .isFalse id

/-- The task is a handler of the query that holds all results and is about to save it. -/
def Task.completesQuery (queryId : Uuid) : Task → Bool
  | .handler t => t.dto.queryId = queryId ∧ t.FindsAll
  | _ => false

instance (queryId : Uuid) (s : Sys) (a : Act Choice EnvAct) :
    Decidable (CompletesQuery queryId s a) :=
  match a with
  | .run i .proceed => decidable_of_iff (s.pool[i]?.any (Task.completesQuery queryId) = true) (by
      rw [Option.any_eq_true]
      constructor
      · rintro ⟨t, ht, hcompletes⟩
        cases t with
        | handler t => exact ⟨t, ht, of_decide_eq_true hcompletes⟩
        | _ => cases hcompletes
      · rintro ⟨t, ht, hcompletes⟩
        exact ⟨_, ht, decide_eq_true hcompletes⟩)
  | .run _ .fail => .isFalse id
  | .run _ (.read _) => .isFalse id
  | .run _ (.body _) => .isFalse id
  | .run _ (.draw _) => .isFalse id
  | .env _ => .isFalse id

instance (queryId : Uuid) (url : String) (s : Sys) (a : Act Choice EnvAct) :
    Decidable (CompletesFirst queryId url s a) :=
  decidable_of_iff _ completesFirst_iff.symm

theorem notified_once_repeatedPath :
    ∃ tr s, Run (system ⟨1, "http://swapi", some⟩).step initial tr s ∧ s.pool = [] ∧
      notified s ⟨2⟩ "http://localhost:3000" = 1 ∧
      NotifiedOnce ⟨2⟩ "http://localhost:3000" tr s ∧
      ∀ p ∈ tr, CompletesFirst ⟨2⟩ "http://localhost:3000" p.1 p.2 := by
  have hexec : (exec (restrict (fun s a => CompletesFirst ⟨2⟩ "http://localhost:3000" s a)
      (system ⟨1, "http://swapi", some⟩).step) initial repeatedPath).any (fun s =>
        s.pool = [] ∧ notified s ⟨2⟩ "http://localhost:3000" = 1 ∧
          s.store.db.queries.lookup ⟨2⟩
            = some ⟨some "http://localhost:3000", .COMPLETED⟩) = true := by
    decide +kernel
  have hfault : ∀ a ∈ repeatedPath, faultless a = true := by decide
  obtain ⟨tr, s, hrun, htr, hp⟩ := exists_run_of_exec _ hexec
  obtain ⟨hpool, hone, hrow⟩ := of_decide_eq_true hp
  obtain ⟨hrun, hfirst⟩ := hrun.of_restrict
  rw [← htr, List.forall_mem_map] at hfault
  obtain ⟨henough, hnecessary⟩ := notified_once _ hrun
    (fun p hp => not_databaseFails_of_faultless (hfault p hp)) hrow rfl (by decide)
  have honce := henough fun p hp => of_decide_eq_true (hfirst p hp)
  exact ⟨tr, s, hrun, hpool, hone, honce, hnecessary hpool honce⟩

end SwapiService
