import SwapiService.InFlight

/-!
# The API gateway

Polling, from the client's side.  The query manager cannot throw across the
message broker, so it reports a query that does not exist with a sentinel id, and
the gateway turns the sentinel back into an exception.

## Main definitions

* `getQueryRequest` — `ApiGatewayService.getQueryRequest` on the query manager's reply.
* `poll` — that function composed with `fetchQueryResultsAsync`.
* `PollsStore`, `PollsResponse` — a poll shows what is stored; a poll shows what
  the creation returned.

## Main results

* `pollsStore` — every poll shows what is stored.
* `pollsResponse_of_step` — a poll right after a creation shows its response.
* `polling_faithful` — both, and that a query once created is found forever.
-/

namespace SwapiService

open TaskPool Transition

/-! ### The gateway -/

/-- What `getQueryRequest` throws: the exception of a query that does not exist, or
the one an error of the query manager is wrapped into. -/
inductive GatewayException
  | NotFoundException (message : String)
  | RpcException
  deriving DecidableEq, Repr

/-- `ApiGatewayService.getQueryRequest`, given the reply to its `QUERY_READ`; there is
none if the query manager failed. -/
def getQueryRequest : Option QueryDto → Except GatewayException QueryDto
  | none => .error .RpcException
  | some result =>
      if result.id = .NOT_FOUND then .error (.NotFoundException "Unknown query ID")
      else .ok result

/-- A poll of a query manager whose database answers. -/
def poll (db : Database) (id : Uuid) : Except GatewayException QueryDto :=
  getQueryRequest (some (fetchQueryResultsAsync db id))

theorem getQueryRequest_of_ne {result : QueryDto} (h : result.id ≠ .NOT_FOUND) :
    getQueryRequest (some result) = .ok result := if_neg h

/-! ### What a poll shows -/

/-- The entities of a query are loaded once each. -/
theorem Database.nodup_subqueriesOf (db : Database) (id : Uuid) :
    ((db.subqueriesOf id).map SubqueryEntity.id).Nodup := by
  have hkeys : (db.subqueries.entries.map Sigma.fst).Nodup := db.subqueries.nodupKeys
  rw [subqueriesOf, List.map_map]
  exact hkeys.sublist (List.filter_sublist.map _)

/-- What is returned for a query that exists. -/
theorem fetchQueryResultsAsync_of_row {db : Database} {id : Uuid} {row : QueryRow}
    (h : db.queries.lookup id = some row) :
    (fetchQueryResultsAsync db id).id = .uuid id ∧
      (fetchQueryResultsAsync db id).status = row.status ∧
      (fetchQueryResultsAsync db id).callbackUrl = row.callbackUrl ∧
      ((fetchQueryResultsAsync db id).subqueries.map SubqueryDto.id).Nodup := by
  have hfind := Database.findQuery_eq_some.mpr ⟨row, h, rfl⟩
  unfold fetchQueryResultsAsync
  rw [hfind]
  refine ⟨rfl, rfl, rfl, ?_⟩
  rw [List.map_map]
  exact db.nodup_subqueriesOf id

theorem poll_of_row {db : Database} {id : Uuid} {row : QueryRow}
    (h : db.queries.lookup id = some row) : poll db id = .ok (fetchQueryResultsAsync db id) := by
  apply getQueryRequest_of_ne
  rw [(fetchQueryResultsAsync_of_row h).1]
  intro hid
  cases hid

theorem poll_of_notMem {db : Database} {id : Uuid} (h : id ∉ db.queries) :
    poll db id = .error (.NotFoundException "Unknown query ID") := by
  have hfind : db.findQuery id = none := by
    rw [Database.findQuery, AList.lookup_eq_none.mpr h, Option.map_none]
  unfold poll fetchQueryResultsAsync
  rw [hfind]
  rfl

/-- A poll shows what is stored: it throws just in case there is no such query, and
otherwise returns the columns of its row and one DTO for each of its subquery rows. -/
structure PollsStore (db : Database) (id : Uuid) : Prop where
  notFound : poll db id = .error (.NotFoundException "Unknown query ID") ↔ id ∉ db.queries
  found : ∀ row, db.queries.lookup id = some row → ∃ dto, poll db id = .ok dto ∧
    dto.id = .uuid id ∧ dto.status = row.status ∧ dto.callbackUrl = row.callbackUrl ∧
    (dto.subqueries.map SubqueryDto.id).Nodup ∧
    ∀ q, q ∈ dto.subqueries ↔ q.queryId = id ∧
      db.subqueries.lookup q.id = some ⟨q.path, id, q.result⟩

/-- **Every poll shows what is stored.** -/
theorem pollsStore (db : Database) (id : Uuid) : PollsStore db id where
  notFound := by
    refine ⟨fun hthrows hmem => ?_, poll_of_notMem⟩
    obtain ⟨row, hrow⟩ := Database.exists_lookup hmem
    rw [poll_of_row hrow] at hthrows
    cases hthrows
  found row hrow := by
    obtain ⟨hid, hstatus, hcb, hnd⟩ := fetchQueryResultsAsync_of_row hrow
    refine ⟨_, poll_of_row hrow, hid, hstatus, hcb, hnd, fun q => ?_⟩
    rw [mem_fetchQueryResultsAsync]
    exact and_iff_right (Database.mem_of_lookup hrow)

/-! ### A poll after the creation -/

/-- A poll shows what the creation returned, its subqueries in some order. -/
def PollsResponse (db : Database) (response : CreateQueryResponseDto) : Prop :=
  ∃ id dto, response.id = .uuid id ∧ poll db id = .ok dto ∧ dto.id = response.id ∧
    dto.status = response.status ∧ dto.callbackUrl = response.callbackUrl ∧
    dto.subqueries.Perm response.subqueries

/-- **The last save of a creation stores what its response says.** -/
theorem Creation.Ok.pollsResponse {db db' : Database} {query : QueryEntity}
    (hok : (⟨query, .saveSubqueries⟩ : Creation).Ok db)
    (hnd : (⟨query, .saveSubqueries⟩ : Creation).owned.Nodup)
    (hsave : db.saveSubqueries query.subqueries = some db') :
    PollsResponse db' (fetchQueryRequestResultsFromDataSource query) := by
  obtain ⟨hqueries, hother, hrows⟩ := hok.saved hnd hsave
  have hrow : db'.queries.lookup query.id = some ⟨query.callbackUrl, .PENDING⟩ := by
    rw [hqueries]
    exact hok.stored rfl
  obtain ⟨hid, hstatus, hcb, hfetched⟩ := fetchQueryResultsAsync_of_row hrow
  refine ⟨query.id, _, rfl, poll_of_row hrow, hid, hstatus.trans hok.status.symm, hcb, ?_⟩
  -- Neither list repeats an id, so it is enough that they have the same elements.
  have hresponse : ((fetchQueryRequestResultsFromDataSource query).subqueries.map
      SubqueryDto.id).Nodup := by
    rw [fetchQueryRequestResultsFromDataSource, List.map_map]
    exact (List.nodup_cons.mp hnd).2
  rw [List.perm_ext_iff_of_nodup (List.Nodup.of_map _ hfetched) (List.Nodup.of_map _ hresponse)]
  intro d
  rw [mem_fetchQueryResultsAsync, and_iff_right (Database.mem_of_lookup hrow)]
  simp only [fetchQueryRequestResultsFromDataSource, List.mem_map]
  constructor
  · rintro ⟨hq, hd⟩
    by_cases hmem : d.id ∈ query.subqueries.map SubqueryEntity.id
    · obtain ⟨e, he, heid⟩ := List.mem_map.mp hmem
      have he' := hrows e he
      rw [heid, hd, Option.some.injEq, SubqueryRow.mk.injEq] at he'
      obtain ⟨hpath, -, hresult⟩ := he'
      refine ⟨e, he, ?_⟩
      rw [hok.query e he, Option.getD_some, heid, ← hpath, ← hresult, ← hq]
    · -- Before the save the query had no row.
      rw [hother d.id hmem] at hd
      exact absurd rfl (hok.childless d.id _ hd)
  · rintro ⟨e, he, rfl⟩
    rw [hok.query e he]
    exact ⟨rfl, hrows e he⟩

/-- A segment that returns a response with an id has stored what it says. -/
theorem Creation.pollsResponse_of_fires {db : Database} {cache : ResourceCollection}
    {query : QueryEntity} {phase : CreationPhase} {c : Choice} {e : Effect Creation}
    (hok : (⟨query, phase⟩ : Creation).Ok db) (hnd : (⟨query, phase⟩ : Creation).owned.Nodup)
    (h : Fires db cache query phase c e) {response : CreateQueryResponseDto}
    (hresponse : response ∈ e.responses) (hid : response.id ≠ .blank) :
    PollsResponse e.db response := by
  cases h with
  | hit reads newSubqueries hall ht =>
    -- The response of the fast path has no id.
    obtain rfl := List.mem_singleton.mp hresponse
    exact absurd rfl hid
  | savedSubqueries db' hsave =>
    obtain rfl := List.mem_singleton.mp hresponse
    exact hok.pollsResponse hnd hsave
  | _ => cases hresponse

/-! ### Runs -/

section Runs

variable {cfg : Settings} {s s' : Sys}

/-- Only a creation returns a response. -/
theorem Reacts.created_eq {s s' : Store} {t : Task} {c : Choice} {ts : List Task}
    (h : Reacts cfg s t c s' ts) (hcreation : ∀ u, t ≠ .creation u) : s'.created = s.created := by
  cases h with
  | creation h => exact absurd rfl (hcreation _)
  | @handler t c e h =>
    have hnone : e.responses = [] := by
      generalize t.phase = phase at h
      cases h <;> rfl
    show s.created ++ e.responses = s.created
    rw [hnone, List.append_nil]
  | _ => rfl

/-- **A poll right after a creation shows its response.** -/
theorem pollsResponse_of_step (hI : (discipline cfg).Inv s) {a : Act Choice EnvAct}
    (hs : (system cfg).step s a = some s') {response : CreateQueryResponseDto}
    (hcreated : s'.store.created = s.store.created ++ [response]) (hid : response.id ≠ .blank) :
    PollsResponse s'.store.db response := by
  have hchanged : s'.store.created ≠ s.store.created := by
    intro hsame
    rw [hsame] at hcreated
    exact List.cons_ne_nil _ _ (List.self_eq_append_right.mp hcreated)
  rcases system_step_cases hs with ⟨i, c, t, rest, ts, -, hr, hreacts⟩ | ⟨e, ts, -, hacts, -⟩
  · by_cases ht : ∃ u, t = .creation u
    · obtain ⟨u, rfl⟩ := ht
      obtain ⟨e, hfires, hstore, -⟩ := hreacts.of_creation
      have hmem : response ∈ e.responses := by
        rw [hstore] at hcreated
        have hresponses : e.responses = [response] := List.append_cancel_left hcreated
        rw [hresponses]
        exact List.mem_cons_self
      have hpolls := Creation.pollsResponse_of_fires (hI.ok _ hr.mem).2 (hI.owned_runs hr).1 hfires
        hmem hid
      rw [hstore]
      exact hpolls
    · exact absurd (hreacts.created_eq fun u hu => ht ⟨u, hu⟩) hchanged
  · refine absurd ?_ hchanged
    generalize s'.store = st' at hacts
    cases hacts <;> rfl

/-- A query that is found once is found in every later state. -/
theorem PollsResponse.later (hI : (discipline cfg).Inv s) {response : CreateQueryResponseDto}
    (h : PollsResponse s.store.db response) (hr : Reachable (system cfg).step s s') :
    ∃ id dto, response.id = .uuid id ∧ poll s'.store.db id = .ok dto := by
  obtain ⟨id, dto, hid, hpoll, -⟩ := h
  have hmem : id ∈ s.store.db.queries := by
    by_contra hno
    rw [poll_of_notMem hno] at hpoll
    cases hpoll
  obtain ⟨row, hrow⟩ := Database.exists_lookup hmem
  obtain ⟨row', hrow', -⟩ := (grows_of_inv hI hr).query id row hrow
  exact ⟨id, _, hid, poll_of_row hrow'⟩

/-- **Polling is faithful**, whatever the cache held at the start: in every reachable
state a poll shows what is stored; right after a creation it shows the response, and
in no later state is the query unknown. -/
theorem polling_faithful (cfg : Settings) (cache : ResourceCollection) {s : Sys}
    (h : Reachable (system cfg).step (startingWith cache) s) :
    (∀ id, PollsStore s.store.db id) ∧
      ∀ a s' response, (system cfg).step s a = some s' →
        s'.store.created = s.store.created ++ [response] → response.id ≠ .blank →
        PollsResponse s'.store.db response ∧
          ∀ s'', Reachable (system cfg).step s' s'' →
            ∃ id dto, response.id = .uuid id ∧ poll s''.store.db id = .ok dto := by
  refine ⟨fun id => pollsStore s.store.db id, fun a s' response hs hcreated hid => ?_⟩
  have hI : (discipline cfg).Inv s :=
    h.invariant (inv_startingWith cfg cache) fun hI hs => Discipline.inv_step hI hs
  have hpolls := pollsResponse_of_step hI hs hcreated hid
  exact ⟨hpolls, fun s'' hlater => hpolls.later (Discipline.inv_step hI hs) hlater⟩

end Runs

/-- A query of two paths, one of them cached at the start, up to its last save. -/
def partlyCached : List (Act Choice EnvAct) :=
  [.env (.create ⟨["people/1", "planets/1"], some "http://localhost:3000"⟩ [⟨0⟩, ⟨1⟩] ⟨2⟩),
    .run 0 (.read 1), .run 0 (.read 0), .run 0 .proceed, .run 0 .proceed]

/-- Its response: the cached result is in it, and the other one is missing. -/
def partlyCachedResponse : CreateQueryResponseDto :=
  { id := .uuid ⟨2⟩
    subqueries := [⟨⟨0⟩, "people/1", ⟨2⟩, .null⟩, ⟨⟨1⟩, "planets/1", ⟨2⟩, .structured "[]"⟩]
    callbackUrl := some "http://localhost:3000"
    status := .PENDING }

theorem polling_faithful_partlyCached :
    ∃ cache s s', Reachable (system ⟨1, "http://swapi", some⟩).step (startingWith cache) s ∧
      (system ⟨1, "http://swapi", some⟩).step s (.run 0 .proceed) = some s' ∧
      (∀ id, PollsStore s.store.db id) ∧ PollsResponse s'.store.db partlyCachedResponse ∧
      ∃ id dto, partlyCachedResponse.id = .uuid id ∧ poll s'.store.db id = .ok dto := by
  let cache := (ResourceCollection.empty.save ⟨none, "planets/1", .structured "[]"⟩).getD .empty
  have hexec : (exec (system ⟨1, "http://swapi", some⟩).step (startingWith cache) partlyCached).any
      (fun s => ((system ⟨1, "http://swapi", some⟩).step s (.run 0 .proceed)).any fun s' =>
        s'.store.created = s.store.created ++ [partlyCachedResponse]) = true := by
    decide +kernel
  obtain ⟨s, hreach, hstep⟩ := exists_reachable_of_exec _ hexec
  obtain ⟨s', hs, hcreated⟩ := (Option.any_eq_true _ _).mp hstep
  obtain ⟨hstore, hcreation⟩ := polling_faithful _ cache hreach
  obtain ⟨hpolls, hlater⟩ := hcreation _ s' partlyCachedResponse hs (of_decide_eq_true hcreated)
    (by decide)
  exact ⟨cache, s, s', hreach, hs, hstore, hpolls, hlater s' (.refl s')⟩

end SwapiService
