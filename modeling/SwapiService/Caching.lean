import SwapiService.Unshared

/-!
# What is cached is not fetched

What a connector finds in the cache it does not ask for.  Once a path is cached no cache
read leads to a GET for it, whatever else happens, until its entry is removed; a GET whose
connector read the cache before may still be on its way.  When all GETs have been answered
and nothing is in flight, the cache has exactly the paths that were fetched, but for those
whose results have not got into it.

## Main results

* `docs_truthy_of_run` — documents hold truthy results.
* `cached_step` — no step reads the cache for a path that is cached and then asks for it.
* `cached_paths_not_fetched` — nor does any step of a run.
* `fetched_iff_cached` — what the cache has in the end.
-/

namespace SwapiService

open TaskPool Transition

section Reactions

variable {cfg : Settings} {s s' : Store} {t : Task} {c : Choice} {ts : List Task}

/-- **No reaction takes a path out of the cache.** -/
theorem Reacts.keeps_docs (h : Reacts cfg s t c s' ts) (hok : t.Asserts s.db) {path : String}
    (hdoc : path ∈ s.cache.docs) : path ∈ s'.cache.docs := by
  cases h with
  | @updater u _ cache out h =>
    rcases CacheUpdate.lookup_of_fires hok h path with hsame | ⟨rfl, i, hown⟩
    · rw [← AList.lookup_isSome] at hdoc ⊢
      exact hsame ▸ hdoc
    · have hmem : u.dto.path ∈ cache.docs := by
        rw [← AList.lookup_isSome, hown]
        rfl
      exact hmem
  | _ => exact hdoc

/-- Nor does anything from outside, but its removal. -/
theorem Acts.keeps_docs {e : EnvAct} (h : Acts s e s' ts) {path : String}
    (hkept : e ≠ .removeCacheEntry path) (hdoc : path ∈ s.cache.docs) : path ∈ s'.cache.docs := by
  cases h with
  | removeCacheEntry path' =>
    have hne : path ≠ path' := by
      rintro rfl
      exact hkept rfl
    exact AList.mem_erase.mpr ⟨hne, hdoc⟩
  | _ => exact hdoc

/-- What is cached is not missed. -/
theorem Task.misses_of_mem {cache : ResourceCollection}
    (hdocs : ∀ path doc, cache.docs.lookup path = some doc → doc.cachedResult.truthy = true)
    {path : String} (hdoc : path ∈ cache.docs) (t : Task) : t.misses cache path = false := by
  obtain ⟨doc, hlookup⟩ := Option.isSome_iff_exists.mp (AList.lookup_isSome.mpr hdoc)
  have hcached : (cache.cached path).truthy = true := by
    simp only [ResourceCollection.cached, ResourceCollection.findOne, hlookup, Option.map_some]
    rw [Json.truthy_orNull]
    exact hdocs path doc hlookup
  cases t with
  | connector f =>
    refine decide_eq_false ?_
    rintro ⟨-, -, hmiss⟩
    exact hmiss hcached
  | _ => rfl

end Reactions

section Runs

variable {cfg : Settings} {tr tr' : List (Sys × Act Choice EnvAct)} {s s' : Sys} {path : String}

/-- **Documents hold truthy results**, in every run. -/
theorem docs_truthy_of_run (h : Run (system cfg).step initial tr s) :
    ∀ path doc, s.store.cache.docs.lookup path = some doc → doc.cachedResult.truthy = true := by
  induction h with
  | nil => exact fun path doc hdoc => nomatch hdoc
  | @snoc tr s s' a h hs ih =>
    rcases system_step_cases hs with ⟨i, c, t, rest, ts, -, hr, hreacts⟩ | ⟨e, ts, -, hacts, -⟩
    · exact hreacts.docs_truthy ((inv_of_reachable ⟨tr, h⟩).ok t hr.mem).2 ih
    · generalize s'.store = store at hacts
      cases hacts with
      | removeCacheEntry path =>
        intro path' doc hdoc
        have hne : path' ≠ path := by
          rintro rfl
          rw [ResourceCollection.remove, AList.lookup_erase] at hdoc
          cases hdoc
        rw [ResourceCollection.remove, AList.lookup_erase_ne hne] at hdoc
        exact ih path' doc hdoc
      | _ => exact ih

/-- **No cache read leads to a GET for a path that is cached**, and the path stays
cached. -/
theorem cached_step (h : Run (system cfg).step initial tr s) {a : Act Choice EnvAct}
    (hs : (system cfg).step s a = some s') (hkept : a ≠ .env (.removeCacheEntry path))
    (hdoc : path ∈ s.store.cache.docs) :
    path ∈ s'.store.cache.docs ∧ issued cfg s' path = issued cfg s path := by
  rcases system_step_cases hs with ⟨i, c, t, rest, ts, -, hr, hreacts⟩ | ⟨e, ts, rfl, hacts, hp⟩
  · have hok := ((inv_of_reachable ⟨tr, h⟩).ok t hr.mem).2
    have hmiss : t.misses s.store.cache path = false :=
      Task.misses_of_mem (docs_truthy_of_run h) hdoc t
    refine ⟨hreacts.keeps_docs hok hdoc, ?_⟩
    rw [issued_runs hr, hmiss]
    simp
  · exact ⟨hacts.keeps_docs (fun he => hkept (he ▸ rfl)) hdoc, issued_acts hacts hp path⟩

/-- **What is cached is not asked for again.**  From any state a run leads to in which a
path is cached, no cache read of a connector leads to a GET for it, whatever fails and
whoever asks, until its entry is removed; and until then it stays cached. -/
theorem cached_paths_not_fetched (h : Run (system cfg).step initial tr s)
    (hdoc : path ∈ s.store.cache.docs) (h' : Run (system cfg).step s tr' s')
    (hkept : ∀ p ∈ tr', p.2 ≠ .env (.removeCacheEntry path)) :
    path ∈ s'.store.cache.docs ∧ issued cfg s' path = issued cfg s path := by
  induction h' with
  | nil => exact ⟨hdoc, rfl⟩
  | @snoc tr' t t' a h' hs ih =>
    obtain ⟨hdoc', hsame⟩ := ih fun p hp => hkept p (List.mem_append_left _ hp)
    obtain ⟨hdoc'', hsame'⟩ := cached_step (h.append h') hs (hkept (t, a) (by simp)) hdoc'
    exact ⟨hdoc'', hsame'.trans hsame⟩

/-- Once the first query is served, the second one costs no GET. -/
theorem cached_paths_not_fetched_sharedPath :
    ∃ s s' : Sys, issued ⟨2, "http://swapi", some⟩ s "people/1" = 1 ∧
      s'.pool = [] ∧ "people/1" ∈ s'.store.cache.docs ∧
      issued ⟨2, "http://swapi", some⟩ s' "people/1"
        = issued ⟨2, "http://swapi", some⟩ s "people/1" := by
  have hexec : (exec (system ⟨2, "http://swapi", some⟩).step initial
      (sharedPath.take 29)).any (fun s =>
      "people/1" ∈ s.store.cache.docs ∧ issued ⟨2, "http://swapi", some⟩ s "people/1" = 1 ∧
        (exec (system ⟨2, "http://swapi", some⟩).step s (sharedPath.drop 29)).any fun s' =>
          s'.pool = []) = true := by
    decide +kernel
  obtain ⟨tr, s, hrun, -, hp⟩ := exists_run_of_exec _ hexec
  obtain ⟨hdoc, hone, hexec'⟩ := of_decide_eq_true hp
  obtain ⟨tr', s', hrun', hacts, hp'⟩ := exists_run_of_exec _ hexec'
  have hfault : ∀ a ∈ sharedPath.drop 29, faultless a = true := by decide
  rw [← hacts, List.forall_mem_map] at hfault
  refine ⟨s, s', hone, of_decide_eq_true hp', cached_paths_not_fetched hrun hdoc hrun' ?_⟩
  intro p hp hremove
  have hkept := hfault p hp
  rw [hremove] at hkept
  cases hkept

/-- The books are kept along every run of answered steps. -/
theorem accounted_of_run (h : Run (system cfg).step initial tr s)
    (ha : ∀ p ∈ tr, Answered p.1 p.2) : Accounted cfg tr s := by
  induction h with
  | nil => exact accounted_initial cfg
  | @snoc tr s s' a h hs ih =>
    exact (ih fun p hp => ha p (List.mem_append_left _ hp)).step (ha (s, a) (by simp)) hs

/-- **What the cache has in the end.**  In every run in which all GETs are answered and no
entry is removed, once nothing is in flight, the paths that were fetched are those that
are cached, and those of which a result has not got into the cache: an update failed, or
the pipe in front of it refused the event or made something falsy of its result. -/
theorem fetched_iff_cached (h : Run (system cfg).step initial tr s)
    (ha : ∀ p ∈ tr, Answered p.1 p.2) (hq : s.pool = []) (path : String) :
    resourceUrl cfg.swapiBaseUrl path ∈ s.store.gets.map HttpGet.url ↔
      path ∈ s.store.cache.docs ∨ CachingFailed cfg tr path := by
  have hissued : 0 < issued cfg s path ↔
      resourceUrl cfg.swapiBaseUrl path ∈ s.store.gets.map HttpGet.url := by
    rw [issued, hq, List.countP_nil, Nat.add_zero, List.countP_pos_iff, List.mem_map]
    simp only [decide_eq_true_eq]
  have hserves : ¬ ∃ u ∈ s.pool, u.serves path = true := by
    rw [hq]
    rintro ⟨u, hu, -⟩
    cases hu
  have hmem : s.store.cache.docs.lookup path ≠ none ↔ path ∈ s.store.cache.docs :=
    AList.lookup_eq_none.not_left
  rw [← hissued, (accounted_of_run h ha).issued_pos, hmem, or_iff_right hserves]

/-- A path that is requested twice, fetched once, and cached. -/
theorem fetched_iff_cached_sharedPath :
    ∃ tr s, Run (system ⟨2, "http://swapi", some⟩).step initial tr s ∧
      tr.map Prod.snd = sharedPath ∧
      "http://swapi/people/1" ∈ s.store.gets.map HttpGet.url ∧
      ("http://swapi/people/1" ∈ s.store.gets.map HttpGet.url ↔
        "people/1" ∈ s.store.cache.docs ∨
          CachingFailed ⟨2, "http://swapi", some⟩ tr "people/1") := by
  have hexec : (exec (system ⟨2, "http://swapi", some⟩).step initial sharedPath).any (fun s =>
      s.pool = [] ∧ "http://swapi/people/1" ∈ s.store.gets.map HttpGet.url) = true := by
    decide +kernel
  have hfault : ∀ a ∈ sharedPath, faultless a = true := by decide
  obtain ⟨tr, s, hrun, htr, hp⟩ := exists_run_of_exec _ hexec
  obtain ⟨hpool, hget⟩ := of_decide_eq_true hp
  rw [← htr, List.forall_mem_map] at hfault
  have hiff := fetched_iff_cached hrun (fun p hp => answered_of_faultless (hfault p hp)) hpool
    "people/1"
  exact ⟨tr, s, hrun, htr, hget, hiff⟩

end Runs

end SwapiService
