import SwapiService.ApiGateway
import SwapiService.Lib.Ledger
import SwapiService.Lib.Refinement

/-!
# The query ledger

What the database of the query manager is for: a ledger of queries.  A query is opened
with its callback, its subqueries are listed once and for all, and each of them is
filled in at most once; the status is a mark that may change.  The saves of the
services write whole entities that were loaded, or built, some awaits earlier.  All the
same, under every interleaving what they amount to is one of these four steps, and so
clients that poll see a query that only grows.

## Main definitions

* `Database.ledger` — the ledger in the database: a `null` result is no value.
* `Shows` — a poll response shows a ledger.
* `QueryDto.Extends` — a later poll response says all that an earlier one did.

## Main results

* `ledger_refinement` — the system refines the ledger.
* `system_refines_ledger` — the same, for every state of every run.
* `polls_extend` — of the polls of a run, every one extends those before it.
-/

namespace SwapiService

open TaskPool Transition Ledgers Function Relation

/-! ### The ledger in the database -/

/-- The ledger of the queries: the headers are the callbacks, the marks the statuses,
the labels the paths, and the values the results. -/
abbrev QueryLedger := Ledger Uuid (Option String) Status String Json

abbrev QueryForm := Form Uuid (Option String) Status String Json

/-- A result as a value. -/
def Json.value (r : Json) : Option Json := if r = .null then none else some r

/-- The entry of a row in the form of a query: none, if it belongs to another one. -/
def SubqueryRow.entry (queryId : Uuid) (row : SubqueryRow) : Option (Entry String Json) :=
  if row.queryId = queryId then some ⟨row.path, row.result.value⟩ else none

/-- The entries of a query. -/
def Database.entries (db : Database) (queryId id : Uuid) : Option (Entry String Json) :=
  (db.subqueries.lookup id).bind (SubqueryRow.entry queryId)

/-- The form of a query. -/
def Database.form (db : Database) (queryId : Uuid) (row : QueryRow) : QueryForm :=
  ⟨row.callbackUrl, row.status, db.entries queryId⟩

/-- The ledger in the database. -/
def Database.ledger (db : Database) : QueryLedger := fun id =>
  (db.queries.lookup id).map (db.form id)

theorem Json.value_eq_some {r v : Json} : r.value = some v ↔ r = v ∧ r ≠ .null := by
  unfold value
  split_ifs with hr
  · simp [hr]
  · simp [hr]

theorem SubqueryRow.entry_eq_some {queryId : Uuid} {row : SubqueryRow} {e : Entry String Json} :
    row.entry queryId = some e ↔ row.queryId = queryId ∧ e = ⟨row.path, row.result.value⟩ := by
  unfold entry
  split_ifs with hq
  · simp [hq, eq_comm]
  · simp [hq]

section Ledger

variable {db db' : Database} {queryId : Uuid} {qrow : QueryRow}

theorem Database.ledger_eq_some {f : QueryForm} : db.ledger queryId = some f ↔
    ∃ row, db.queries.lookup queryId = some row ∧ f = db.form queryId row := by
  rw [ledger, Option.map_eq_some_iff]
  exact exists_congr fun row => and_congr_right fun _ => eq_comm

theorem Database.ledger_of_row (h : db.queries.lookup queryId = some qrow) :
    db.ledger queryId = some (db.form queryId qrow) := by
  rw [ledger, h, Option.map_some]

theorem Database.entries_eq_some {id : Uuid} {e : Entry String Json} :
    db.entries queryId id = some e ↔
      ∃ row, db.subqueries.lookup id = some row ∧ row.queryId = queryId ∧
        e = ⟨row.path, row.result.value⟩ := by
  rw [entries, Option.bind_eq_some_iff]
  exact exists_congr fun row => and_congr_right fun _ => SubqueryRow.entry_eq_some

/-- A query without rows has no entries. -/
theorem Database.entries_of_childless
    (h : ∀ id row, db.subqueries.lookup id = some row → row.queryId ≠ queryId) (id : Uuid) :
    db.entries queryId id = none := by
  rw [Option.eq_none_iff_forall_ne_some]
  intro e he
  obtain ⟨row, hrow, hq, -⟩ := entries_eq_some.mp he
  exact h id row hrow hq

theorem Database.entries_of_notMem {id : Uuid} (h : id ∉ db.subqueries) :
    db.entries queryId id = none := by
  rw [entries, AList.lookup_eq_none.mpr h, Option.bind_none]

theorem Database.entries_congr {id : Uuid}
    (h : db'.subqueries.lookup id = db.subqueries.lookup id) :
    db'.entries queryId id = db.entries queryId id := by
  rw [entries, entries, h]

/-- A query whose row and entries are the same has the same form. -/
theorem Database.ledger_congr (hqueries : db'.queries = db.queries)
    (h : ∀ id, db'.entries queryId id = db.entries queryId id) :
    db'.ledger queryId = db.ledger queryId := by
  rw [ledger, ledger, hqueries]
  refine congrArg (Option.map · _) (funext fun row => ?_)
  rw [form, form, funext h]

/-! ### What the saves amount to -/

/-- A query save replaces one form. -/
theorem Database.ledger_saveQuery (db : Database) (query : QueryEntity) :
    (db.saveQuery query).ledger
      = update db.ledger query.id (some (db.form query.id ⟨query.callbackUrl, query.status⟩)) := by
  funext id
  by_cases hid : id = query.id
  · subst hid
    rw [update_self, ledger_of_row (lookup_saveQuery db query)]
    rfl
  · rw [update_of_ne hid, ledger, lookup_saveQuery_ne db hid]
    rfl

/-- **The first save of a creation opens a form.** -/
theorem Database.next_of_savedQuery {query : QueryEntity} (hnew : query.id ∉ db.queries)
    (hrows : ∀ id row, db.subqueries.lookup id = some row → row.queryId ≠ query.id) :
    Ledger.Next db.ledger (db.saveQuery query).ledger := by
  have hnone : db.ledger query.id = none := by
    rw [ledger, AList.lookup_eq_none.mpr hnew, Option.map_none]
  have hempty : db.entries query.id = fun _ => none := funext (entries_of_childless hrows)
  rw [ledger_saveQuery, form, hempty]
  exact .opens _ _ hnone

/-- **The query save of a handler changes a mark.** -/
theorem Database.next_of_savedStatus {query : QueryEntity}
    (hrow : db.queries.lookup query.id = some qrow) (hcb : qrow.callbackUrl = query.callbackUrl) :
    Ledger.Next db.ledger (db.saveQuery query).ledger := by
  rw [ledger_saveQuery, ← hcb]
  exact .marks query.status (ledger_of_row hrow)

/-- **The second save of a creation lists the entries of its form.** -/
theorem Database.next_of_savedSubqueries {es : List SubqueryEntity}
    (hrow : db.queries.lookup queryId = some qrow) (hqueries : db'.queries = db.queries)
    (hother : ∀ id ∉ es.map SubqueryEntity.id, db'.subqueries.lookup id = db.subqueries.lookup id)
    (hrows : ∀ e ∈ es, db'.subqueries.lookup e.id = some ⟨e.path, queryId, e.result⟩)
    (hfresh : ∀ e ∈ es, e.id ∉ db.subqueries)
    (hchildless : ∀ id row, db.subqueries.lookup id = some row → row.queryId ≠ queryId) :
    Ledger.Next db.ledger db'.ledger := by
  -- The forms of other queries do not see the new rows.
  have hsame : ∀ id ≠ queryId, db'.ledger id = db.ledger id := by
    intro id hid
    refine ledger_congr hqueries fun i => ?_
    by_cases hi : i ∈ es.map SubqueryEntity.id
    · obtain ⟨e, he, rfl⟩ := List.mem_map.mp hi
      rw [entries_of_notMem (hfresh e he), entries, hrows e he, Option.bind_some]
      exact if_neg (Ne.symm hid)
    · exact entries_congr (hother i hi)
  have hupdate : db'.ledger = update db.ledger queryId
      (some { db.form queryId qrow with entries := db'.entries queryId }) := by
    funext id
    by_cases hid : id = queryId
    · subst hid
      rw [update_self, ledger_of_row (hqueries ▸ hrow)]
      rfl
    · rw [update_of_ne hid, hsame id hid]
  rw [hupdate]
  refine .lists _ (ledger_of_row hrow) (entries_of_childless hchildless) fun i hi k f hf => ?_
  -- A row that is listed is new.
  obtain ⟨e, he⟩ := Option.ne_none_iff_exists'.mp hi
  obtain ⟨row, hrow', hq, -⟩ := entries_eq_some.mp he
  obtain ⟨krow, -, rfl⟩ := ledger_eq_some.mp hf
  by_cases hmem : i ∈ es.map SubqueryEntity.id
  · obtain ⟨s, hs, rfl⟩ := List.mem_map.mp hmem
    exact entries_of_notMem (hfresh s hs)
  · rw [hother i hmem] at hrow'
    exact absurd hq (hchildless i row hrow')

/-- **The last save of a handler fills an entry in**, unless its result is `null`. -/
theorem Database.next_of_savedSubquery {dto : SubqueryDto} (hqueries : db'.queries = db.queries)
    (hother : ∀ id ≠ dto.id, db'.subqueries.lookup id = db.subqueries.lookup id)
    (hawaits : Awaits db dto)
    (hown : db'.subqueries.lookup dto.id = some ⟨dto.path, dto.queryId, dto.result⟩) :
    db'.ledger = db.ledger ∨ Ledger.Next db.ledger db'.ledger := by
  obtain ⟨row, hrow, hpath, hq, hmem, hnull⟩ := hawaits
  obtain ⟨qrow, hqrow⟩ := exists_lookup hmem
  by_cases hres : dto.result = .null
  · -- The row was `null` before and is `null` after.
    left
    have hrow' : db'.subqueries.lookup dto.id = some row := by
      rw [hown, ← hpath, ← hq, hres, ← hnull]
    funext id
    refine ledger_congr hqueries fun i => entries_congr ?_
    by_cases hi : i = dto.id
    · rw [hi, hrow', hrow]
    · exact hother i hi
  · right
    have hentry : db.entries dto.queryId dto.id = some ⟨row.path, none⟩ :=
      entries_eq_some.mpr ⟨row, hrow, hq, by rw [hnull]; rfl⟩
    have hentry' : db'.entries dto.queryId dto.id = some ⟨row.path, some dto.result⟩ :=
      entries_eq_some.mpr ⟨_, hown, rfl, by rw [hpath, Json.value_eq_some.mpr ⟨rfl, hres⟩]⟩
    have hentries : db'.entries dto.queryId
        = update (db.entries dto.queryId) dto.id (some ⟨row.path, some dto.result⟩) := by
      funext i
      by_cases hi : i = dto.id
      · rw [hi, update_self, hentry']
      · rw [update_of_ne hi]
        exact entries_congr (hother i hi)
    have hupdate : db'.ledger = update db.ledger dto.queryId
        (some { db.form dto.queryId qrow with entries := db'.entries dto.queryId }) := by
      funext id
      by_cases hid : id = dto.queryId
      · subst hid
        rw [update_self, ledger_of_row (hqueries ▸ hqrow)]
        rfl
      · rw [update_of_ne hid]
        refine ledger_congr hqueries fun i => ?_
        by_cases hi : i = dto.id
        · -- The row belongs to the other query, before and after.
          rw [hi, entries, entries, hown, hrow, Option.bind_some, Option.bind_some,
            SubqueryRow.entry, SubqueryRow.entry, if_neg (Ne.symm hid), if_neg (hq ▸ Ne.symm hid)]
        · exact entries_congr (hother i hi)
    rw [hupdate, hentries]
    exact .fills dto.result (ledger_of_row hqrow) hentry rfl

end Ledger

/-! ### The refinement -/

/-- **A reaction is one step of the ledger at most.** -/
theorem Reacts.ledger {cfg : Settings} {s s' : Store} {t : Task} {c : Choice} {ts : List Task}
    (hok : t.Asserts s.db) (hnd : t.owned.Nodup) (h : Reacts cfg s t c s' ts) :
    s'.db.ledger = s.db.ledger ∨ Ledger.Next s.db.ledger s'.db.ledger := by
  cases h with
  | @creation t c e h =>
    obtain ⟨query, phase⟩ := t
    show e.db.ledger = s.db.ledger ∨ Ledger.Next s.db.ledger e.db.ledger
    cases h with
    | savedQuery => exact .inr (Database.next_of_savedQuery (hok.unstored (by simp)) hok.childless)
    | savedSubqueries db' hsave =>
      obtain ⟨hqueries, hother, hrows⟩ := hok.saved hnd hsave
      have hfresh : ∀ e ∈ query.subqueries, e.id ∉ s.db.subqueries := fun e he =>
        hok.fresh e.id (Creation.id_mem_owned he)
      exact .inr (Database.next_of_savedSubqueries (hok.stored rfl) hqueries hother hrows hfresh
        hok.childless)
    | _ => exact .inl rfl
  | @handler t c e h =>
    obtain ⟨dto, phase⟩ := t
    obtain ⟨hawaits, hok⟩ := hok
    show e.db.ledger = s.db.ledger ∨ Ledger.Next s.db.ledger e.db.ledger
    cases h with
    | savedQuery subquery query cached =>
      -- The callback it writes back, loaded some awaits ago, is still the stored one.
      obtain ⟨-, -, ⟨-, row, hrow, hcb⟩, -⟩ := hok
      have hrow' : s.db.queries.lookup (updatedQuery dto query cached).id = some row := hrow
      exact .inr (Database.next_of_savedStatus hrow' hcb)
    | savedSubquery subquery updated latest db' hsave =>
      obtain ⟨hqueries, hother, hown⟩ := hok.saved hsave
      exact Database.next_of_savedSubquery hqueries hother hawaits hown
    | _ => exact .inl rfl
  | _ => exact .inl rfl

/-- **The system refines the ledger**, as long as the ownership discipline holds. -/
theorem ledger_refinement (cfg : Settings) :
    Refinement (system cfg).step (discipline cfg).Inv (fun s => s.store.db.ledger) Ledger.Next where
  keeps hI hs := Discipline.inv_step hI hs
  steps hI hs := by
    rcases system_step_cases hs with ⟨i, c, t, rest, ts, -, hr, hreacts⟩ | ⟨e, ts, -, hacts, -⟩
    · exact hreacts.ledger (hI.ok t hr.mem).2 (hI.owned_runs hr).1
    · rw [hacts.db]
      exact .inl rfl

/-- **The system is a ledger of queries.**  Whatever the cache holds at the start, every
step out of a reachable state opens a query, lists its subqueries, fills one of them
in, changes a status, or leaves the ledger alone; and each ledger extends all those
that were there before it. -/
theorem system_refines_ledger (cfg : Settings) (cache : ResourceCollection) {s : Sys}
    (h : Reachable (system cfg).step (startingWith cache) s) :
    (∀ a s', (system cfg).step s a = some s' →
      s'.store.db.ledger = s.store.db.ledger ∨
        Ledger.Next s.store.db.ledger s'.store.db.ledger) ∧
      ∀ s', Reachable (system cfg).step s s' →
        Ledger.Extends s.store.db.ledger s'.store.db.ledger := by
  obtain ⟨tr, h⟩ := h
  have hI := (ledger_refinement cfg).invariant (inv_startingWith cfg cache) h
  refine ⟨fun a s' hs => (ledger_refinement cfg).steps hI hs, fun s' ⟨tr', h'⟩ => ?_⟩
  exact Ledger.extends_of_star ((ledger_refinement cfg).star hI h')

/-- From the delivery of a result to its save, its entry is filled in. -/
theorem system_refines_ledger_firstSave :
    ∃ s s' : Sys, s.store.db.entries ⟨1⟩ ⟨0⟩ = some ⟨"people/1", none⟩ ∧
      s'.store.db.entries ⟨1⟩ ⟨0⟩ = some ⟨"people/1", some (.structured "\x7b\x7d")⟩ ∧
      (∀ a t, (system ⟨1, "http://swapi", some⟩).step s a = some t →
        t.store.db.ledger = s.store.db.ledger ∨
          Ledger.Next s.store.db.ledger t.store.db.ledger) ∧
      Ledger.Extends s.store.db.ledger s'.store.db.ledger := by
  have hexec : (exec (system ⟨1, "http://swapi", some⟩).step (startingWith .empty) firstResult).any
      (fun s => s.store.db.entries ⟨1⟩ ⟨0⟩ = some ⟨"people/1", none⟩ ∧
        (exec (system ⟨1, "http://swapi", some⟩).step s firstSave).any fun s' =>
          s'.store.db.entries ⟨1⟩ ⟨0⟩
            = some ⟨"people/1", some (.structured "\x7b\x7d")⟩) = true := by
    decide +kernel
  obtain ⟨s, hs, hp⟩ := exists_reachable_of_exec _ hexec
  obtain ⟨hopen, hexec'⟩ := of_decide_eq_true hp
  obtain ⟨s', hs', hfilled⟩ := exists_reachable_of_exec _ hexec'
  obtain ⟨hsteps, hextends⟩ := system_refines_ledger _ _ hs
  exact ⟨s, s', hopen, of_decide_eq_true hfilled, hsteps, hextends s' hs'⟩

/-! ### What clients see -/

/-- The response to a poll shows a form: its header and its mark, and one subquery for
each entry. -/
structure ShowsForm (queryId : Uuid) (f : QueryForm) (r : QueryDto) : Prop where
  callbackUrl : r.callbackUrl = f.header
  status : r.status = f.mark
  nodup : (r.subqueries.map SubqueryDto.id).Nodup
  sound : ∀ d ∈ r.subqueries, d.queryId = queryId ∧
    f.entries d.id = some ⟨d.path, d.result.value⟩
  complete : ∀ id, f.entries id ≠ none → ∃ d ∈ r.subqueries, d.id = id

/-- The response to a poll shows a ledger: if it is for a query at all, it shows its
form. -/
def Shows (l : QueryLedger) (r : QueryDto) : Prop :=
  ∀ queryId, r.id = .uuid queryId → ∃ f, l queryId = some f ∧ ShowsForm queryId f r

/-- A later response says all that an earlier one for the query did: it has the same
callback, and, once subqueries were shown at all, the same subqueries; a result that
was shown is shown again. -/
structure QueryDto.Extends (r r' : QueryDto) : Prop where
  callbackUrl : r'.callbackUrl = r.callbackUrl
  subqueries : r.subqueries ≠ [] →
    (r'.subqueries.map SubqueryDto.id).Perm (r.subqueries.map SubqueryDto.id)
  kept : ∀ d ∈ r.subqueries, ∃ d' ∈ r'.subqueries, d'.id = d.id ∧ d'.path = d.path ∧
    (d.result ≠ .null → d' = d)

/-- **What a poll returns shows the ledger.** -/
theorem shows_fetchQueryResultsAsync (db : Database) (queryId : Uuid) :
    Shows db.ledger (fetchQueryResultsAsync db queryId) := by
  intro id hid
  cases hrow : db.queries.lookup queryId with
  | none =>
    have hfind : db.findQuery queryId = none := by rw [Database.findQuery, hrow, Option.map_none]
    rw [fetchQueryResultsAsync, hfind] at hid
    cases hid
  | some row =>
    obtain ⟨hid', hstatus, hcb, hnd⟩ := fetchQueryResultsAsync_of_row hrow
    obtain rfl : queryId = id := ResponseId.uuid.inj (hid'.symm.trans hid)
    have hmem : queryId ∈ db.queries := Database.mem_of_lookup hrow
    refine ⟨_, Database.ledger_of_row hrow, hcb, hstatus, hnd, fun d hd => ?_, fun i hi => ?_⟩
    · obtain ⟨-, hq, hd⟩ := mem_fetchQueryResultsAsync.mp hd
      exact ⟨hq, Database.entries_eq_some.mpr ⟨_, hd, rfl, rfl⟩⟩
    · obtain ⟨e, he⟩ := Option.ne_none_iff_exists'.mp hi
      obtain ⟨⟨path, qid, result⟩, hrow', rfl, -⟩ := Database.entries_eq_some.mp he
      exact ⟨⟨i, path, qid, result⟩, mem_fetchQueryResultsAsync.mpr ⟨hmem, rfl, hrow'⟩, rfl⟩

/-- A response that shows a form shows one subquery for each entry. -/
theorem ShowsForm.mem_ids_iff {queryId : Uuid} {f : QueryForm} {r : QueryDto}
    (h : ShowsForm queryId f r) {id : Uuid} :
    id ∈ r.subqueries.map SubqueryDto.id ↔ f.entries id ≠ none := by
  constructor
  · intro hid
    obtain ⟨d, hd, rfl⟩ := List.mem_map.mp hid
    rw [(h.sound d hd).2]
    exact Option.some_ne_none _
  · intro hid
    obtain ⟨d, hd, rfl⟩ := h.complete id hid
    exact List.mem_map_of_mem hd

/-- **What is shown of a later form extends what was shown of an earlier one.** -/
theorem ShowsForm.extends {queryId : Uuid} {f f' : QueryForm} {r r' : QueryDto}
    (hf : f.Extends f') (h : ShowsForm queryId f r) (h' : ShowsForm queryId f' r') :
    r.Extends r' where
  callbackUrl := by rw [h'.callbackUrl, hf.header, h.callbackUrl]
  subqueries hne := by
    rw [List.perm_ext_iff_of_nodup h'.nodup h.nodup]
    intro id
    rw [h'.mem_ids_iff, h.mem_ids_iff]
    -- With some entry listed, no other one is added.
    obtain ⟨d, hd⟩ := List.exists_mem_of_ne_nil _ hne
    have hlisted : ∃ i, f.entries i ≠ none := ⟨d.id, h.mem_ids_iff.mp (List.mem_map_of_mem hd)⟩
    constructor
    · exact fun hid' hid => hid' (hf.listed hlisted id hid)
    · intro hid
      obtain ⟨e, he⟩ := Option.ne_none_iff_exists'.mp hid
      obtain ⟨e', he', -⟩ := hf.entry id e he
      rw [he']
      exact Option.some_ne_none e'
  kept d hd := by
    obtain ⟨hq, hentry⟩ := h.sound d hd
    obtain ⟨e', he', hext⟩ := hf.entry d.id _ hentry
    obtain ⟨d', hd', hid⟩ := h'.complete d.id (by rw [he']; exact Option.some_ne_none e')
    obtain ⟨hq', hentry'⟩ := h'.sound d' hd'
    rw [hid, he'] at hentry'
    obtain rfl := Option.some.inj hentry'
    have hpath : d'.path = d.path := hext.label
    refine ⟨d', hd', hid, hpath, fun hres => ?_⟩
    have hvalue := hext.value d.result (Json.value_eq_some.mpr ⟨rfl, hres⟩)
    have hresult : d'.result = d.result := (Json.value_eq_some.mp hvalue).1
    obtain ⟨id, path, qid, result⟩ := d
    obtain ⟨id', path', qid', result'⟩ := d'
    simp only at hid hpath hq hq' hresult
    rw [hid, hpath, hq, hq', hresult]

/-- What is shown of a later ledger extends what was shown of an earlier one. -/
theorem Shows.extends {l l' : QueryLedger} {r r' : QueryDto} (h : Shows l r)
    (hl : Ledger.Extends l l') (h' : Shows l' r') {queryId : Uuid} (hid : r.id = .uuid queryId)
    (hid' : r'.id = .uuid queryId) : r.Extends r' := by
  obtain ⟨f, hf, hshows⟩ := h queryId hid
  obtain ⟨f', hf', hshows'⟩ := h' queryId hid'
  obtain ⟨f'', hf'', hext⟩ := hl queryId f hf
  obtain rfl := Option.some.inj (hf''.symm.trans hf')
  exact hshows.extends hext hshows'

/-- A step records at most one poll, and what that shows is the ledger. -/
theorem polled_of_step {cfg : Settings} {s s' : Sys} {a : Act Choice EnvAct}
    (hs : (system cfg).step s a = some s') :
    s'.store.polled = s.store.polled ∨
      ∃ r, s'.store.polled = s.store.polled ++ [r] ∧ Shows s.store.db.ledger r := by
  rcases system_step_cases hs with ⟨i, c, t, rest, ts, -, hr, hreacts⟩ | ⟨e, ts, -, hacts, -⟩
  · left
    generalize s'.store = st' at hreacts
    cases hreacts <;> rfl
  · generalize s'.store = st' at hacts
    cases hacts with
    | poll id => exact .inr ⟨_, rfl, shows_fetchQueryResultsAsync s.store.db id⟩
    | _ => exact .inl rfl

/-- **Of the polls of a run, every one extends those before it.**  However the services
interleave, and whatever fails: a client that polls a query sees the callback it gave,
either no subqueries yet or all there will ever be, and no result that changes or goes
away. -/
theorem polls_extend (cfg : Settings) (cache : ResourceCollection) {s : Sys}
    (h : Reachable (system cfg).step (startingWith cache) s) :
    s.store.polled.Pairwise fun r r' =>
      ∀ queryId, r.id = .uuid queryId → r'.id = .uuid queryId → r.Extends r' := by
  obtain ⟨tr, h⟩ := h
  refine (ledger_refinement cfg).pairwise_log (inv_startingWith cfg cache) rfl
    (fun _ hs => polled_of_step hs) ?_ h
  intro l l' r r' hstar hr hr' queryId hid hid'
  exact hr.extends (Ledger.extends_of_star hstar) hr' hid hid'

/-- A client polls before the result is saved, and again after. -/
theorem polls_extend_firstSave :
    ∃ s : Sys, s.store.polled.map QueryDto.status = [.PENDING, .COMPLETED] ∧
      s.store.polled.Pairwise fun r r' =>
        ∀ queryId, r.id = .uuid queryId → r'.id = .uuid queryId → r.Extends r' := by
  have hexec : (exec (system ⟨1, "http://swapi", some⟩).step (startingWith .empty)
      (firstResult ++ .env (.poll ⟨1⟩) :: firstSave ++ [.env (.poll ⟨1⟩)])).any
      (fun s => s.store.polled.map QueryDto.status = [.PENDING, .COMPLETED]) = true := by
    decide +kernel
  obtain ⟨s, hs, hp⟩ := exists_reachable_of_exec _ hexec
  exact ⟨s, of_decide_eq_true hp, polls_extend _ _ hs⟩

end SwapiService
