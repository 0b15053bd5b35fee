import SwapiService.Lib.Redelivery
import SwapiService.Provenance
import SwapiService.QueryLedger

/-!
# Redelivery

The services subscribe without a queue group, so a second replica of a service gets every
event again, and a job whose worker stalls is run again.  Then no one owns a row any
more: two handlers may save two results, and the second replaces the first.  What does
not depend on ownership is left.  A message still refers to its row, a result is still
one of its path, and the queries are still a ledger, but for the values.

## Main definitions

* `Task.isMessage` — what may be delivered again.
* `Task.Knows` — what a task asserts when it owns nothing.
* `creationDiscipline` — only creations own ids.
* `QueryDto.unfilled`, `Outlines` — a poll response without its results.
* `RedeliverySafe` — what redelivery cannot break.

## Main results

* `redelivery_refinement` — the system still refines the ledger with nothing filled in.
* `safe_under_redelivery` — redelivery breaks none of it.
-/

namespace SwapiService

open TaskPool Transition Ledgers Relation

/-! ### Messages without owners -/

/-- An event, or a job of the queue. -/
def Task.isMessage : Task → Bool
  | .scheduleFetch _ => true
  | .job _ => true
  | .fetchToConnector _ => true
  | .fetchToTraffic _ => true
  | .receiveToQueryManager _ => true
  | .receiveToCacheManager _ => true
  | _ => false

/-- The ids only this task knows. -/
def Task.drew : Task → List Uuid
  | .creation t => t.owned
  | _ => []

/-- What a task asserts about the database when it owns no row: that its event refers to
one. -/
def Task.Knows (db : Database) : Task → Prop
  | .creation t => t.Ok db
  | .scheduleFetch payload => ∀ id ∈ payload.id,
      ∃ dto, payload.validate = some dto ∧ dto.id = id ∧ Refers db dto
  | .scheduler a => Refers db a.dto
  | .job j => Refers db j.data
  | .processor a => Refers db a.dto
  | .fetchToConnector dto => Refers db dto
  | .fetchToTraffic dto => Refers db dto
  | .usageLogger _ _ => True
  | .connector f => Refers db f.dto
  | .receiveToQueryManager dto => Refers db dto
  | .receiveToCacheManager dto => Refers db dto
  | .handler t => t.Ok db
  | .updater u => u.Ok

/-- Its ids have been drawn, and the assertion holds. -/
def Task.Loose (s : Store) (t : Task) : Prop := t.drew ⊆ s.drawn ∧ t.Knows s.db

theorem Task.drew_of_isMessage {t : Task} (h : t.isMessage = true) : t.drew = [] := by
  cases t with
  | creation t => cases h
  | _ => rfl

/-- **The assertions survive steps on rows that are stored**, and on ids of other tasks. -/
theorem Task.Knows.frame {ids : List Uuid} {db db' : Database} {t : Task} (h : t.Knows db)
    (hf : Database.Frame ids db db') (hids : ∀ id ∈ ids, id ∈ t.drew → id ∈ db.subqueries) :
    t.Knows db' := by
  cases t with
  | creation t =>
    refine Creation.Ok.frame h hf fun id hid hown => ?_
    exact Creation.Ok.fresh h id hown (hids id hid hown)
  | scheduleFetch payload =>
    intro id hid
    obtain ⟨dto, hval, hdto, href⟩ := h id hid
    exact ⟨dto, hval, hdto, href.frame hf⟩
  | usageLogger dto u => trivial
  | handler t => exact Handler.Ok.frame h hf
  | updater u => exact h
  | scheduler a => exact Refers.frame h hf
  | job j => exact Refers.frame h hf
  | processor a => exact Refers.frame h hf
  | fetchToConnector dto => exact Refers.frame h hf
  | fetchToTraffic dto => exact Refers.frame h hf
  | connector f => exact Refers.frame h hf
  | receiveToQueryManager dto => exact Refers.frame h hf
  | receiveToCacheManager dto => exact Refers.frame h hf

section Reactions

variable {cfg : Settings} {s s' : Store} {t : Task} {c : Choice} {ts : List Task}

/-- **A reaction stays within a frame** of ids its task has drawn, or rows that are
stored. -/
theorem Reacts.frame_of_knows (hok : t.Knows s.db) (hnd : t.drew.Nodup)
    (h : Reacts cfg s t c s' ts) :
    ∃ ids, Database.Frame ids s.db s'.db ∧ ∀ id ∈ ids, id ∈ t.drew ∨ id ∈ s.db.subqueries := by
  cases h with
  | creation h => exact ⟨_, Creation.frame_of_fires hok hnd h, fun _ hid => .inl hid⟩
  | @handler t c e h =>
    obtain ⟨row, hrow, -⟩ := hok.1
    refine ⟨[t.dto.id], Handler.frame_of_fires hok h, fun id hid => .inr ?_⟩
    obtain rfl := List.mem_singleton.mp hid
    exact Database.mem_of_lookup hrow
  | _ => exact ⟨[], .refl _ _, by simp⟩

/-- Nothing but a creation leads to one. -/
theorem Reacts.drew_eq_nil (hcreation : ∀ u, t ≠ .creation u) (h : Reacts cfg s t c s' ts) :
    ∀ u ∈ ts, u.drew = [] := by
  cases h with
  | creation h => exact absurd rfl (hcreation _)
  | handler h => exact Effect.forall_tasks (fun _ _ => rfl) fun _ _ => rfl
  | scheduleFetch payload => exact SubqueryPayload.forall_tasks fun _ => rfl
  | scheduler h => exact h.forall_tasks rfl (fun _ => rfl) rfl rfl rfl
  | processor h => exact h.forall_tasks rfl (fun _ => rfl) rfl rfl rfl
  | usageLogger hfresh h => exact Outcome.forall_tasks fun _ _ => rfl
  | @connector f c effect out h =>
    obtain ⟨dto, phase⟩ := f
    cases h <;> simp [receiveMessages, Task.drew]
  | receiveToCacheManager dto => exact Outcome.forall_tasks fun _ _ => rfl
  | updater h => exact Outcome.forall_tasks fun _ _ => rfl
  | _ => simp [Task.drew]

/-- **A creation hands its ids on**, and nothing else has any. -/
theorem Reacts.drew (hok : t.Knows s.db) (h : Reacts cfg s t c s' ts) (hnd : t.drew.Nodup) :
    (ts.flatMap Task.drew).Nodup ∧ ts.flatMap Task.drew ⊆ t.drew := by
  by_cases hcreation : ∀ u, t ≠ .creation u
  · rw [List.flatMap_eq_nil_iff.mpr (h.drew_eq_nil hcreation)]
    exact ⟨List.nodup_nil, List.nil_subset _⟩
  · push Not at hcreation
    obtain ⟨u, rfl⟩ := hcreation
    obtain ⟨e, hfires, -, rfl⟩ := h.of_creation
    have hevents : (e.emitted.map Task.scheduleFetch).flatMap Task.drew = [] := by
      simp [Task.drew]
    rw [Effect.tasks, List.flatMap_append, hevents, List.nil_append]
    cases hout : e.outcome with
    | suspended u' =>
      rw [Outcome.tasks_suspended, List.flatMap_singleton]
      have howned : u'.owned = u.owned := (Creation.ok_of_fires hok hfires hout).2
      show u'.owned.Nodup ∧ u'.owned ⊆ u.owned
      rw [howned]
      exact ⟨hnd, List.Subset.refl _⟩
    | resolved => simp
    | rejected => simp

/-- **A reaction establishes what its successors know.** -/
theorem Reacts.knows (hok : t.Knows s.db) (hnd : t.drew.Nodup) (h : Reacts cfg s t c s' ts) :
    ∀ u ∈ ts, u.Knows s'.db := by
  cases h with
  | creation h =>
    obtain ⟨-, -, haw⟩ := Creation.awaits_of_fires hok hnd h
    refine Effect.forall_tasks (fun p hp id hid => ?_) fun t' hout =>
      (Creation.ok_of_fires hok h hout).1
    obtain ⟨dto, hval, hdto, hawaits⟩ := haw p hp id hid
    exact ⟨dto, hval, hdto, hawaits.refers⟩
  | handler h =>
    have hnone := Handler.emitted_of_fires h
    exact Effect.forall_tasks (by simp [hnone]) fun t' hout => Handler.ok_of_fires hok h hout
  | scheduleFetch payload =>
    intro u hu
    obtain ⟨dto, hval, rfl⟩ := List.mem_map.mp hu
    obtain ⟨dto', hval', -, href⟩ := hok dto.id (payload.id_of_validate (Option.mem_toList.mp hval))
    rw [Option.mem_toList.mp hval] at hval'
    obtain rfl := Option.some.inj hval'
    exact href
  | scheduler h => exact h.forall_tasks rfl (fun _ => hok) hok hok hok
  | processor h => exact h.forall_tasks rfl (fun _ => hok) hok hok hok
  | job j hdue =>
    intro u hu
    obtain rfl := List.mem_singleton.mp hu
    exact hok
  | fetchToConnector dto =>
    intro u hu
    obtain rfl := List.mem_singleton.mp hu
    exact hok
  | fetchToTraffic dto => simp [Task.Knows]
  | usageLogger hfresh h => exact Outcome.forall_tasks fun _ _ => trivial
  | @connector f c effect out h =>
    obtain ⟨dto, phase⟩ := f
    cases h with
    | rejects => simp
    | hit => simp
    | unavailable => simp
    | miss =>
      intro u hu
      obtain rfl := List.mem_singleton.mp hu
      exact hok
    | fetched data =>
      have href : Refers s.db { dto with result := data } := hok
      simpa [receiveMessages, Task.Knows] using href
  | receiveToQueryManager dto result hpipe =>
    intro u hu
    obtain rfl := List.mem_singleton.mp hu
    exact ⟨hok, trivial⟩
  | refusedToQueryManager => simp
  | receiveToCacheManager dto =>
    exact Outcome.forall_tasks fun u hup => (CacheUpdate.ok_updateCache hup).1
  | refusedToCacheManager => simp
  | updater h =>
    refine Outcome.forall_tasks fun u hout => ?_
    subst hout
    exact (CacheUpdate.ok_of_fires hok h).1

end Reactions

section Environment

variable {s s' : Store} {e : EnvAct} {ts : List Task}

/-- From outside only creations come, which know what they assert. -/
theorem loose_of_environment (cfg : Settings) (hgood : s.Good)
    (h : environment s e = some (s', ts)) : ∀ u ∈ ts, u.Loose s' := by
  have hok := (discipline cfg).env_ok hgood h
  cases acts_of_environment h with
  | create dto ids queryId =>
    intro u hu
    obtain rfl := List.mem_singleton.mp hu
    exact hok _ List.mem_cons_self
  | _ => simp

/-- Their ids are fresh. -/
theorem Acts.drew (h : Acts s e s' ts) :
    (ts.flatMap Task.drew).Nodup ∧ ∀ id ∈ ts.flatMap Task.drew, id ∉ s.drawn := by
  have howned := h.owned
  cases h with
  | create dto ids queryId => exact howned
  | _ => exact ⟨List.nodup_nil, by simp⟩

/-- What is known stays known. -/
theorem Acts.loose_frame {u : Task} (h : Acts s e s' ts) (hu : u.Loose s) : u.Loose s' := by
  obtain ⟨hdrew, hknows⟩ := hu
  cases h with
  | create dto ids queryId => exact ⟨fun _ hid => List.mem_append_right _ (hdrew hid), hknows⟩
  | _ => exact ⟨hdrew, hknows⟩

end Environment

section Discipline

variable {cfg : Settings} {s s' : Store} {t u : Task} {c : Choice} {ts : List Task}

theorem Reacts.good_of_loose (hgood : s.Good) (hok : t.Loose s) (hnd : t.drew.Nodup)
    (h : Reacts cfg s t c s' ts) : s'.Good := by
  obtain ⟨ids, hf, hids⟩ := h.frame_of_knows hok.2 hnd
  refine hgood.of_frame hf (fun id hid => h.drawn ?_) h.drawn
  exact (hids id hid).elim (fun hdrew => hok.1 hdrew) (hgood.subqueriesDrawn id)

theorem Reacts.loose (hok : t.Loose s) (hnd : t.drew.Nodup) (h : Reacts cfg s t c s' ts) :
    ∀ u ∈ ts, u.Loose s' := by
  intro u hu
  refine ⟨fun id hid => h.drawn (hok.1 ?_), h.knows hok.2 hnd u hu⟩
  exact (h.drew hok.2 hnd).2 (List.mem_flatMap.mpr ⟨u, hu, hid⟩)

theorem Reacts.loose_frame (hok : t.Loose s) (hnd : t.drew.Nodup) (h : Reacts cfg s t c s' ts)
    (hu : u.Loose s) (hdis : t.drew.Disjoint u.drew) : u.Loose s' := by
  obtain ⟨ids, hf, hids⟩ := h.frame_of_knows hok.2 hnd
  refine ⟨fun _ hid => h.drawn (hu.1 hid), hu.2.frame hf fun id hid hown => ?_⟩
  exact (hids id hid).resolve_left fun hdrew => hdis hdrew hown

end Discipline

/-- **The discipline in which only creations own ids.** -/
def creationDiscipline (cfg : Settings) : Discipline (system cfg) Uuid where
  owned := Task.drew
  used s id := id ∈ s.drawn
  Good := Store.Good
  Ok := Task.Loose
  ok_used hok hid := hok.1 hid
  react_good hgood hok hnd hr := (reacts_of_react hr).good_of_loose hgood hok hnd
  react_ok _ hok hnd hr := (reacts_of_react hr).loose hok hnd
  react_owned hok hnd hr := (reacts_of_react hr).drew hok.2 hnd
  react_frame _ hok hnd hr hu hdis := (reacts_of_react hr).loose_frame hok hnd hu hdis
  env_good hgood henv := (discipline cfg).env_good hgood henv
  env_ok hgood henv := loose_of_environment cfg hgood henv
  env_owned henv := (acts_of_environment henv).drew
  env_frame _ henv hu := (acts_of_environment henv).loose_frame hu

theorem creationDiscipline_initial (cfg : Settings) : (creationDiscipline cfg).Inv initial where
  good := (inv_initial cfg).good
  ok t ht := by cases ht
  nodup := List.nodup_nil

/-! ### What redelivery leaves alone -/

theorem Task.Knows.writesOk {db : Database} {t : Task} (h : t.Knows db) (hnd : t.drew.Nodup) :
    t.WritesOk db := by
  cases t with
  | creation t => exact ⟨h, hnd⟩
  | handler t => exact h
  | updater u => exact h
  | _ => trivial

section Ledger

variable {db db' : Database}

/-- Databases that differ in results only have the same ledger with nothing filled in. -/
theorem Database.unfilled_congr (hqueries : db'.queries = db.queries)
    (h : ∀ queryId id, (db'.entries queryId id).map Entry.unfilled
      = (db.entries queryId id).map Entry.unfilled) :
    Ledger.unfilled db'.ledger = Ledger.unfilled db.ledger := by
  funext queryId
  rw [Ledger.unfilled, Ledger.unfilled, ledger, ledger, hqueries, Option.map_map, Option.map_map]
  refine congrArg (Option.map · _) (funext fun row => ?_)
  exact congrArg (Form.mk row.callbackUrl row.status) (funext (h queryId))

/-- **The last save of a handler changes no more than a result**, even a stored one. -/
theorem Database.unfilled_of_savedSubquery {dto : SubqueryDto} (hqueries : db'.queries = db.queries)
    (hother : ∀ id ≠ dto.id, db'.subqueries.lookup id = db.subqueries.lookup id)
    (hrefers : Refers db dto)
    (hown : db'.subqueries.lookup dto.id = some ⟨dto.path, dto.queryId, dto.result⟩) :
    Ledger.unfilled db'.ledger = Ledger.unfilled db.ledger := by
  obtain ⟨row, hrow, hpath, hq, -⟩ := hrefers
  refine unfilled_congr hqueries fun queryId id => ?_
  by_cases hid : id = dto.id
  · rw [hid, entries, entries, hown, hrow, Option.bind_some, Option.bind_some, SubqueryRow.entry,
      SubqueryRow.entry, ← hq]
    split_ifs
    · rw [Option.map_some, Option.map_some, ← hpath]
      rfl
    · rfl
  · rw [entries_congr (hother id hid)]

/-- **A reaction is one step of the ledger with nothing filled in**, at most. -/
theorem Reacts.unfilled_ledger {cfg : Settings} {s s' : Store} {t : Task} {c : Choice}
    {ts : List Task} (hok : t.Knows s.db) (hnd : t.drew.Nodup) (h : Reacts cfg s t c s' ts) :
    Ledger.unfilled s'.db.ledger = Ledger.unfilled s.db.ledger ∨
      Ledger.Next (Ledger.unfilled s.db.ledger) (Ledger.unfilled s'.db.ledger) := by
  cases t with
  | creation t =>
    rcases Reacts.ledger (t := .creation t) hok hnd h with hsame | hnext
    · exact .inl (congrArg Ledger.unfilled hsame)
    · exact Ledger.next_unfilled hnext
  | handler t =>
    obtain ⟨e, hfires, rfl, -⟩ := h.of_handler
    obtain ⟨dto, phase⟩ := t
    obtain ⟨hrefers, hok⟩ := hok
    cases hfires with
    | savedQuery subquery query cached =>
      obtain ⟨-, ⟨-, row, hrow, hcb⟩, -⟩ := hok
      have hrow' : s.db.queries.lookup (updatedQuery dto query cached).id = some row := hrow
      exact Ledger.next_unfilled (Database.next_of_savedStatus hrow' hcb)
    | savedSubquery subquery updated latest db' hsave =>
      obtain ⟨hqueries, hother, hown⟩ := Handler.Ok.saved ⟨hrefers, hok⟩ hsave
      exact .inl (Database.unfilled_of_savedSubquery hqueries hother hrefers hown)
    | _ => exact .inl rfl
  | _ => exact .inl (by rw [h.db_eq (by simp) (by simp)])

end Ledger

/-- **With redelivery the system still refines the ledger with nothing filled in.** -/
theorem redelivery_refinement (cfg : Settings) :
    Refinement ((system cfg).redelivering Task.isMessage) (creationDiscipline cfg).Inv
      (fun s => Ledger.unfilled s.store.db.ledger) Ledger.Next where
  keeps hI hs := Discipline.inv_redelivering (fun _ ht => Task.drew_of_isMessage ht) hI hs
  steps hI hs := by
    rcases Machine.redelivering_store hs with ⟨b, hstep⟩ | ⟨hsame, -⟩
    · rcases system_step_cases hstep with
        ⟨i, c, t, rest, ts, -, hr, hreacts⟩ | ⟨e, ts, -, hacts, -⟩
      · exact hreacts.unfilled_ledger (hI.ok t hr.mem).2 (hI.nodup_owned hr.mem)
      · rw [hacts.db]
        exact .inl rfl
    · rw [hsame]
      exact .inl rfl

/-- A poll response without its results. -/
def QueryDto.unfilled (r : QueryDto) : QueryDto :=
  { r with subqueries := r.subqueries.map fun d => { d with result := .null } }

/-- The response to a poll shows a ledger, its results apart. -/
def Outlines (l : QueryLedger) (r : QueryDto) : Prop := Shows l r.unfilled

/-- What shows a form shows it without the results. -/
theorem ShowsForm.unfilled {queryId : Uuid} {f : QueryForm} {r : QueryDto}
    (h : ShowsForm queryId f r) : ShowsForm queryId f.unfilled r.unfilled where
  callbackUrl := h.callbackUrl
  status := h.status
  nodup := by
    rw [QueryDto.unfilled, List.map_map]
    exact h.nodup
  sound d hd := by
    obtain ⟨d, hmem, rfl⟩ := List.mem_map.mp hd
    obtain ⟨hq, hentry⟩ := h.sound d hmem
    have hunfilled : f.unfilled.entries d.id = some ⟨d.path, none⟩ := by
      show (f.entries d.id).map Entry.unfilled = _
      rw [hentry, Option.map_some]
      rfl
    exact ⟨hq, hunfilled⟩
  complete id hid := by
    obtain ⟨d, hd, rfl⟩ := h.complete id (mt Form.unfilled_eq_none.mpr hid)
    exact ⟨_, List.mem_map_of_mem hd, rfl⟩

theorem Shows.outlines {l : QueryLedger} {r : QueryDto} (h : Shows l r) :
    Outlines (Ledger.unfilled l) r := by
  intro queryId hid
  obtain ⟨f, hf, hshows⟩ := h queryId hid
  exact ⟨f.unfilled, by rw [Ledger.unfilled, hf, Option.map_some], hshows.unfilled⟩

section Runs

variable {cfg : Settings} {s s' : Sys} {tr : List (Sys × RedeliveryAct Choice EnvAct)}

theorem inv_of_redelivering (h : Run ((system cfg).redelivering Task.isMessage) initial tr s) :
    (creationDiscipline cfg).Inv s :=
  h.invariant (creationDiscipline_initial cfg) fun hI hs =>
    Discipline.inv_redelivering (fun _ ht => Task.drew_of_isMessage ht) hI hs

/-- **Results stay with their paths**, whatever is delivered again. -/
theorem sourced_of_redelivering
    (h : Run ((system cfg).redelivering Task.isMessage) initial tr s) : AllSourced cfg s := by
  induction h with
  | nil => exact allSourced_initial cfg
  | snoc hrun hs ih =>
    have hI := inv_of_redelivering hrun
    rcases Machine.redelivering_store hs with ⟨b, hstep⟩ | ⟨hsame, hsub⟩
    · refine (allSourced_step ih (fun t ht => ?_) hstep).2
      exact (hI.ok t ht).2.writesOk (hI.nodup_owned ht)
    · rw [AllSourced, hsame]
      exact ⟨ih.1, fun t ht => ih.2 t (hsub ht)⟩

/-- With redelivery a step records one poll at most too. -/
theorem polled_of_redelivering {a : RedeliveryAct Choice EnvAct}
    (hs : (system cfg).redelivering Task.isMessage s a = some s') :
    s'.store.polled = s.store.polled ∨ ∃ r, s'.store.polled = s.store.polled ++ [r] ∧
      Outlines (Ledger.unfilled s.store.db.ledger) r := by
  rcases Machine.redelivering_store hs with ⟨b, hstep⟩ | ⟨hsame, -⟩
  · exact (polled_of_step hstep).imp_right fun ⟨r, hr, hshows⟩ => ⟨r, hr, hshows.outlines⟩
  · exact .inl (by rw [hsame])

/-- **Later polls show the same subqueries**, whatever is delivered again. -/
theorem polls_of_redelivering (h : Run ((system cfg).redelivering Task.isMessage) initial tr s) :
    s.store.polled.Pairwise fun r r' => ∀ queryId, r.id = .uuid queryId →
      r'.id = .uuid queryId → r.unfilled.Extends r'.unfilled := by
  refine (redelivery_refinement cfg).pairwise_log (creationDiscipline_initial cfg) rfl
    (fun _ hs => polled_of_redelivering hs) ?_ h
  intro l l' r r' hstar hr hr' queryId hid hid'
  exact hr.extends (Ledger.extends_of_star hstar) hr' hid hid'

/-- **What is known refers to rows that are there.** -/
theorem Task.Knows.refers_of_event {db : Database} {t : Task} (h : t.Knows db) {dto : SubqueryDto}
    (ht : t.event = some dto) : Refers db dto := by
  cases t with
  | fetchToConnector d => cases ht; exact h
  | fetchToTraffic d => cases ht; exact h
  | receiveToQueryManager d => cases ht; exact h
  | receiveToCacheManager d => cases ht; exact h
  | job j => cases ht; exact h
  | _ => cases ht

/-- What redelivery cannot break, from `s` to `s'`: the queries of `s` and their subqueries
are there, and no others were added to them; of the polls every one shows the subqueries
that those before it did; every result is what a body that a GET of its path returned
arrives as; an event refers to a stored row, and a handler finds what it looks up. -/
structure RedeliverySafe (cfg : Settings) (s s' : Sys) : Prop where
  ledger : Ledger.Extends (Ledger.unfilled s.store.db.ledger) (Ledger.unfilled s'.store.db.ledger)
  polls : s'.store.polled.Pairwise fun r r' => ∀ queryId, r.id = .uuid queryId →
    r'.id = .uuid queryId → r.unfilled.Extends r'.unfilled
  sourced : s'.store.Sourced (Received cfg s'.store.gets)
  refers : ∀ t ∈ s'.pool, ∀ dto, t.event = some dto → Refers s'.store.db dto
  finds : ∀ t, .handler t ∈ s'.pool → (∃ e, s'.store.db.findSubquery t.dto.id = some e) ∧
    ∃ query, s'.store.db.findQuery t.dto.queryId = some query

/-- **Redelivery breaks none of this**, however often a message is delivered, if at all,
and whatever else is lost. -/
theorem safe_under_redelivery {tr' : List (Sys × RedeliveryAct Choice EnvAct)}
    (h : Run ((system cfg).redelivering Task.isMessage) initial tr s)
    (h' : Run ((system cfg).redelivering Task.isMessage) s tr' s') : RedeliverySafe cfg s s' := by
  have hI := inv_of_redelivering h
  have hI' := inv_of_redelivering (h.append h')
  refine ⟨?_, polls_of_redelivering (h.append h'), (sourced_of_redelivering (h.append h')).1,
    fun t ht dto hdto => ?_, fun t ht => ?_⟩
  · exact Ledger.extends_of_star ((redelivery_refinement cfg).star hI h')
  · exact (hI'.ok t ht).2.refers_of_event hdto
  · obtain ⟨hsubquery, hquery, -⟩ := Handler.Ok.finds (hI'.ok _ ht).2
    exact ⟨hsubquery, hquery⟩

end Runs

/-- A `FETCH` event is delivered twice, and both connectors miss the cache. -/
def fetchedTwice : List (RedeliveryAct Choice EnvAct) :=
  .again 0 :: List.map .act [.run 0 .proceed, .run 1 .proceed, .run 1 .proceed, .run 1 .proceed,
    .run 1 (.body (.structured "\x7b\x7d")), .run 1 (.body (.structured "[]")), .run 1 .proceed,
    .run 4 .proceed, .run 4 .proceed, .run 4 (.read 0), .run 4 .proceed, .run 4 .proceed,
    .run 4 .proceed, .env (.poll ⟨1⟩), .run 2 .proceed, .run 3 .proceed, .run 3 .proceed,
    .run 3 (.read 0), .run 3 .proceed, .run 3 .proceed, .run 3 .proceed, .env (.poll ⟨1⟩)]

/-- The second result replaces the first, which without redelivery cannot happen. -/
theorem safe_under_redelivery_fetchedTwice :
    ∃ s s' : Sys, RedeliverySafe ⟨1, "http://swapi", some⟩ s s' ∧
      s'.store.polled.map (fun r => r.subqueries.map SubqueryDto.result)
        = [[.structured "\x7b\x7d"], [.structured "[]"]] := by
  have hexec : (exec ((system ⟨1, "http://swapi", some⟩).redelivering Task.isMessage) initial
      ((firstResult.take 8).map .act)).any (fun s =>
        (exec ((system ⟨1, "http://swapi", some⟩).redelivering Task.isMessage) s fetchedTwice).any
          fun s' => s'.store.polled.map (fun r => r.subqueries.map SubqueryDto.result)
            = [[.structured "\x7b\x7d"], [.structured "[]"]]) = true := by
    decide +kernel
  obtain ⟨tr, s, hrun, -, hp⟩ := exists_run_of_exec _ hexec
  obtain ⟨tr', s', hrun', -, hp'⟩ := exists_run_of_exec _ hp
  exact ⟨s, s', safe_under_redelivery hrun hrun', of_decide_eq_true hp'⟩

end SwapiService
