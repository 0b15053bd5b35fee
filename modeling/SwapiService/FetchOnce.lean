import SwapiService.Lib.History
import SwapiService.LostWork
import SwapiService.Provenance

/-!
# One GET for each path

The connector asks downstream only for what the cache does not have, and what it gets is
cached.  Between the two other connectors find the cache as it was: how many GETs are
issued for a path depends on who reads the cache meanwhile, and on whether the result is
ever cached.

## Main definitions

* `issued` — the GETs of a path that cache reads have led to, answered or not.
* `Answered` — the runs in question: truthy answers, and no removal.
* `Task.serves` — the result of the path is on its way into the cache.
* `Reaction.losesResult`, `CachingFailed` — it has not got there.
* `FirstMiss` — a connector that finds nothing is the first one to ask.

## Main results

* `Reacts.issued` — what a reaction adds to the GETs.
* `Reacts.serves_iff` — what has been asked for is cached, on its way, or lost.
* `fetched_once_iff` — the exact condition.
* `fetched_twice` — two queries for the same path at the same time.
-/

namespace SwapiService

open TaskPool Transition

/-- A connector waits for the answer to its GET of the path. -/
def Task.awaitsGet (path : String) : Task → Bool
  | .connector f => f.phase = .get ∧ f.dto.path = path
  | _ => false

/-- A connector is about to read the cache, and will find nothing for the path. -/
def Task.misses (cache : ResourceCollection) (path : String) : Task → Bool
  | .connector f => f.phase = .readCache ∧ f.dto.path = path ∧
      ¬ (cache.cached path).truthy = true
  | _ => false

/-- How many GETs the cache reads of connectors have led to for the path: those that were
answered, and those that are not yet.  A GET counts from the read that found nothing, which
it follows as soon as the reply has arrived. -/
def issued (cfg : Settings) (s : Sys) (path : String) : ℕ :=
  s.store.gets.countP (fun g => g.url = resourceUrl cfg.swapiBaseUrl path)
    + s.pool.countP (Task.awaitsGet path)

/-- Every GET is answered with a truthy body, and no cache entry is removed. -/
def Answered (s : Sys) : Act Choice EnvAct → Prop
  | .run i .fail => ∀ f, s.pool[i]? = some (.connector f) → f.phase = .readCache
  | .run _ (.body data) => data.truthy = true
  | .env (.removeCacheEntry _) => False
  | _ => True

/-- The result of the path is on its way: a GET, an event for the cache manager, or an
update of the cache. -/
def Task.serves (path : String) : Task → Bool
  | .connector f => f.phase = .get ∧ f.dto.path = path
  | .receiveToCacheManager dto => dto.path = path
  | .updater u => u.dto.path = path
  | _ => false

/-- The result of the path does not get into the cache: a call of its update fails, or the
pipe of the cache manager refuses it, or makes something falsy of it. -/
def Reaction.losesResult (cfg : Settings) (path : String) (r : Reaction Store Task Choice) :
    Bool :=
  match r.task, r.choice with
  | .updater u, .fail => u.dto.path = path
  | .receiveToCacheManager dto, .proceed =>
      dto.path = path ∧ ¬ (cfg.transform dto.result).any Json.truthy = true
  | _, _ => false

/-- A result of the path has not got into the cache. -/
def CachingFailed (cfg : Settings) (tr : List (Sys × Act Choice EnvAct)) (path : String) : Prop :=
  ∃ r ∈ reactions tr, Reaction.losesResult cfg path r = true

/-- A connector that reads the cache and finds nothing is the first to ask: nothing for
its path is on its way, or was and got lost. -/
def FirstMiss (cfg : Settings) (tr : List (Sys × Act Choice EnvAct)) (s : Sys) :
    Act Choice EnvAct → Prop
  | .run i .proceed => ∀ t, s.pool[i]? = some t → ∀ path, t.misses s.store.cache path = true →
      (∀ u ∈ s.pool, u.serves path = false) ∧ ¬ CachingFailed cfg tr path
  | _ => True

/-! ### One reaction -/

section Reactions

variable {cfg : Settings} {s s' : Store} {t : Task} {c : Choice} {ts : List Task}

/-- Only connectors, the cache manager's events and its updates serve a path, and only
they put such tasks into the pool. -/
theorem Reacts.serves_eq_false (h : Reacts cfg s t c s' ts) (hconnector : ∀ f, t ≠ .connector f)
    (hreceive : ∀ dto, t ≠ .receiveToCacheManager dto) (hupdater : ∀ u, t ≠ .updater u)
    (path : String) :
    s'.gets = s.gets ∧ s'.cache = s.cache ∧ ∀ u ∈ ts, u.serves path = false := by
  cases h with
  | connector h => exact absurd rfl (hconnector _)
  | receiveToCacheManager dto => exact absurd rfl (hreceive dto)
  | updater h => exact absurd rfl (hupdater _)
  | creation h => exact ⟨rfl, rfl, Effect.forall_tasks (fun _ _ => rfl) (fun _ _ => rfl)⟩
  | handler h => exact ⟨rfl, rfl, Effect.forall_tasks (fun _ _ => rfl) (fun _ _ => rfl)⟩
  | scheduler h => exact ⟨rfl, rfl, h.forall_tasks rfl (fun _ => rfl) rfl rfl rfl⟩
  | processor h => exact ⟨rfl, rfl, h.forall_tasks rfl (fun _ => rfl) rfl rfl rfl⟩
  | usageLogger hfresh h => exact ⟨rfl, rfl, Outcome.forall_tasks (fun _ _ => rfl)⟩
  | scheduleFetch payload => exact ⟨rfl, rfl, SubqueryPayload.forall_tasks fun _ => rfl⟩
  | refusedToQueryManager dto => exact ⟨rfl, rfl, by simp⟩
  | refusedToCacheManager dto => exact absurd rfl (hreceive dto)
  | _ =>
    refine ⟨rfl, rfl, ?_⟩
    intro u hu
    simp only [List.mem_singleton] at hu
    subst hu
    rfl

/-- A connector that waits for its GET serves its path. -/
theorem Task.serves_of_awaitsGet {path : String} (h : t.awaitsGet path = true) :
    t.serves path = true := by
  cases t with
  | connector f => exact h
  | _ => cases h

theorem Task.not_exists_serves {path : String} (h : ∀ u ∈ ts, u.serves path = false) :
    ¬ ∃ u ∈ ts, u.serves path = true := by
  rintro ⟨u, hu, hserves⟩
  rw [h u hu] at hserves
  cases hserves

theorem Task.countP_awaitsGet_eq_zero {path : String} (h : ∀ u ∈ ts, u.serves path = false) :
    ts.countP (Task.awaitsGet path) = 0 := by
  apply countP_eq_zero_of_forall
  intro u hu
  by_contra hawaits
  rw [Bool.not_eq_false] at hawaits
  exact Task.not_exists_serves h ⟨u, hu, Task.serves_of_awaitsGet hawaits⟩

/-- A connector whose path is cached does not miss. -/
theorem Task.misses_of_hit {cache : ResourceCollection} {dto : SubqueryDto} (path : String)
    (h : (cache.cached dto.path).truthy = true) :
    (Task.connector ⟨dto, .readCache⟩).misses cache path = false := by
  simp only [Task.misses, decide_eq_false_iff_not]
  rintro ⟨-, rfl, hmiss⟩
  exact hmiss h

/-- **What a reaction adds to the GETs of a path**: one, when a connector finds nothing. -/
theorem Reacts.issued (h : Reacts cfg s t c s' ts) (path : String) :
    s'.gets.countP (fun g => g.url = resourceUrl cfg.swapiBaseUrl path)
        + ts.countP (Task.awaitsGet path)
      = s.gets.countP (fun g => g.url = resourceUrl cfg.swapiBaseUrl path)
        + (if t.awaitsGet path then 1 else 0)
        + (if c = .proceed ∧ t.misses s.cache path then 1 else 0) := by
  by_cases hconnector : ∃ f, t = .connector f
  · obtain ⟨f, rfl⟩ := hconnector
    cases h with
    | @connector _ _ effect out h =>
      obtain ⟨dto, phase⟩ := f
      have hurl : (resourceUrl cfg.swapiBaseUrl dto.path = resourceUrl cfg.swapiBaseUrl path) ↔
          dto.path = path := (resourceUrl_injective cfg.swapiBaseUrl).eq_iff
      cases h with
      | rejects => simp [Task.awaitsGet]
      | hit hit => simp [Task.awaitsGet, Task.misses_of_hit path hit]
      | miss hmiss =>
        by_cases hpath : dto.path = path
        · subst hpath
          simp [Task.awaitsGet, Task.misses, hmiss]
        · simp [Task.awaitsGet, Task.misses, hpath]
      | unavailable =>
        by_cases hpath : dto.path = path
        · simp [Task.awaitsGet, Task.misses, hpath]
        · simp [Task.awaitsGet, Task.misses, hurl, hpath]
      | fetched data =>
        by_cases hpath : dto.path = path
        · simp [Task.awaitsGet, Task.misses, receiveMessages, hpath]
        · simp [Task.awaitsGet, Task.misses, receiveMessages, hurl, hpath]
  · -- Nobody else issues GETs.
    have hserves := h.serves_eq_false fun f heq => hconnector ⟨f, heq⟩
    have hother : s'.gets = s.gets ∧ ts.countP (Task.awaitsGet path) = 0 := by
      cases h with
      | connector h => exact absurd ⟨_, rfl⟩ hconnector
      | receiveToCacheManager =>
        exact ⟨rfl, Outcome.countP_tasks (fun _ => rfl) _⟩
      | refusedToCacheManager => exact ⟨rfl, rfl⟩
      | updater h =>
        exact ⟨rfl, Outcome.countP_tasks (fun _ => rfl) _⟩
      | _ =>
        obtain ⟨hgets, -, hserves⟩ := hserves (by simp) (by simp) path
        exact ⟨hgets, Task.countP_awaitsGet_eq_zero hserves⟩
    have hawaits : t.awaitsGet path = false := by
      cases t with
      | connector f => exact absurd ⟨f, rfl⟩ hconnector
      | _ => rfl
    have hmisses : t.misses s.cache path = false := by
      cases t with
      | connector f => exact absurd ⟨f, rfl⟩ hconnector
      | _ => rfl
    rw [hother.1, hother.2, hawaits, hmisses]
    simp

/-- **What has been asked for is not forgotten**: the result of a path is cached, or on its
way, or has just been lost, just in case it was cached or on its way before, or has just
been asked for. -/
theorem Reacts.serves_iff (h : Reacts cfg s t c s' ts) (hok : t.Asserts s.db)
    (hget : ∀ f, t = .connector f → c = .fail → f.phase = .readCache) (path : String) :
    (s'.cache.docs.lookup path ≠ none ∨ (∃ u ∈ ts, u.serves path = true) ∨
        Reaction.losesResult cfg path ⟨s, t, c⟩ = true) ↔
      s.cache.docs.lookup path ≠ none ∨ t.serves path = true ∨
        c = .proceed ∧ t.misses s.cache path = true := by
  have hother := h.serves_eq_false
  cases h with
  | @connector f _ effect out h =>
    obtain ⟨dto, phase⟩ := f
    cases h with
    | rejects => simp [Task.serves, Reaction.losesResult]
    | hit hit => simp [Task.serves, Reaction.losesResult, Task.misses_of_hit path hit]
    | miss hmiss =>
      by_cases hpath : dto.path = path
      · subst hpath
        simp [Task.serves, Task.misses, Reaction.losesResult, hmiss]
      · simp [Task.serves, Task.misses, Reaction.losesResult, hpath]
    | unavailable => cases hget _ rfl rfl
    | fetched data => simp [Task.serves, Reaction.losesResult, receiveMessages]
  | receiveToCacheManager dto result hpipe =>
    -- Either an update starts, or the result is lost.
    by_cases htruthy : result.truthy = true
    · simp [updateCache, Task.serves, Task.misses, Reaction.losesResult, hpipe, htruthy]
    · simp [updateCache, Task.serves, Task.misses, Reaction.losesResult, hpipe, htruthy]
  | refusedToCacheManager dto hpipe =>
    simp [Task.serves, Task.misses, Reaction.losesResult, hpipe]
  | @updater u _ cache out h =>
    obtain ⟨dto, phase⟩ := u
    cases h with
    | rejects => simp [Task.serves, Reaction.losesResult]
    | found => simp [Task.serves, Task.misses, Reaction.losesResult]
    | saved resource _ hsave =>
      obtain ⟨hpath, -⟩ := hok.2 resource rfl
      obtain ⟨⟨i, hown⟩, hne⟩ := ResourceCollection.lookup_save hsave
      rw [hpath] at hown hne
      by_cases hp : path = dto.path
      · subst hp
        simp [Task.serves, hown]
      · simp [Task.serves, Task.misses, Reaction.losesResult, hne path hp, Ne.symm hp]
    | duplicate resource hsave =>
      -- The index refuses the document because there is one.
      obtain ⟨hpath, -⟩ := hok.2 resource rfl
      have hsome : s.cache.docs.lookup dto.path ≠ none := by
        intro hnone
        rw [← hpath] at hnone
        unfold ResourceCollection.save at hsave
        rw [hnone] at hsave
        cases hid : resource.objectId <;> rw [hid] at hsave <;> cases hsave
      by_cases hp : dto.path = path
      · subst hp
        simp [hsome]
      · simp [Task.serves, Task.misses, Reaction.losesResult, hp]
  | _ =>
    obtain ⟨-, hcache, hserves⟩ := hother (by simp) (by simp) (by simp) path
    rw [hcache]
    simp only [Task.not_exists_serves hserves]
    simp [Task.serves, Task.misses, Reaction.losesResult]

/-- Documents hold truthy results, as updates store nothing else. -/
theorem Reacts.docs_truthy (h : Reacts cfg s t c s' ts) (hok : t.Asserts s.db)
    (hdocs : ∀ path doc, s.cache.docs.lookup path = some doc → doc.cachedResult.truthy = true) :
    ∀ path doc, s'.cache.docs.lookup path = some doc → doc.cachedResult.truthy = true := by
  cases h with
  | @updater u _ cache out h =>
    intro path doc hdoc
    rcases CacheUpdate.lookup_of_fires hok h path with hsame | ⟨rfl, i, hown⟩
    · exact hdocs path doc (hsame ▸ hdoc)
    · have hdoc' : cache.docs.lookup u.dto.path = some doc := hdoc
      rw [hown] at hdoc'
      obtain rfl := Option.some.inj hdoc'
      exact hok.1
  | _ => exact hdocs

/-- Nothing from outside is a GET, or serves a path. -/
theorem Acts.gets {e : EnvAct} (h : Acts s e s' ts) :
    s'.gets = s.gets ∧ ∀ path, ∀ u ∈ ts, u.serves path = false := by
  refine ⟨?_, fun path => h.forall_tasks fun _ _ _ => rfl⟩
  cases h <;> rfl

/-- Only a removal from outside changes the cache. -/
theorem Acts.cache {e : EnvAct} (h : Acts s e s' ts)
    (hremove : ∀ path, e ≠ .removeCacheEntry path) : s'.cache = s.cache := by
  cases h with
  | removeCacheEntry path => exact absurd rfl (hremove path)
  | _ => rfl

end Reactions

/-! ### Runs -/

/-- What is known after a run of answered steps: documents are truthy, and a path has been
asked for just in case its result is cached, on its way, or lost. -/
structure Accounted (cfg : Settings) (tr : List (Sys × Act Choice EnvAct)) (s : Sys) : Prop where
  owned : (discipline cfg).Inv s
  docs : ∀ path doc, s.store.cache.docs.lookup path = some doc → doc.cachedResult.truthy = true
  issued_pos : ∀ path, 0 < issued cfg s path ↔
    s.store.cache.docs.lookup path ≠ none ∨ (∃ u ∈ s.pool, u.serves path = true) ∨
      CachingFailed cfg tr path

section Runs

variable {cfg : Settings} {tr : List (Sys × Act Choice EnvAct)} {s s' : Sys}

theorem accounted_initial (cfg : Settings) : Accounted cfg [] initial where
  owned := inv_initial cfg
  docs path doc hdoc := by cases hdoc
  issued_pos path := by
    refine iff_of_false (Nat.lt_irrefl 0) ?_
    rintro (h | ⟨u, hu, -⟩ | ⟨r, hr, -⟩)
    · exact h rfl
    · cases hu
    · cases hr

/-- The GETs of a path after a task runs. -/
theorem issued_runs {i : ℕ} {c : Choice} {t : Task} {rest ts : List Task}
    (hr : (system cfg).Runs s i c s' t rest ts) (path : String) :
    issued cfg s' path
      = issued cfg s path + if c = .proceed ∧ t.misses s.store.cache path then 1 else 0 := by
  have hreaction := (reacts_of_react hr.react).issued path
  rw [issued, issued, hr.countP_pool, hr.countP_pool']
  omega

/-- Nothing from outside issues GETs. -/
theorem issued_acts {e : EnvAct} {ts : List Task} (hacts : Acts s.store e s'.store ts)
    (hp : s'.pool = s.pool ++ ts) (path : String) : issued cfg s' path = issued cfg s path := by
  obtain ⟨hgets, hserves⟩ := hacts.gets
  rw [issued, issued, hp, hgets, List.countP_append,
    Task.countP_awaitsGet_eq_zero (hserves path), Nat.add_zero]

/-- GETs are never taken back. -/
theorem issued_mono {a : Act Choice EnvAct} (hs : (system cfg).step s a = some s')
    (path : String) : issued cfg s path ≤ issued cfg s' path := by
  rcases system_step_cases hs with ⟨i, c, t, rest, ts, -, hr, -⟩ | ⟨e, ts, -, hacts, hp⟩
  · rw [issued_runs hr]
    exact Nat.le_add_right _ _
  · exact (issued_acts hacts hp path).ge

/-- What the task that runs accounts for, with what the rest accounts for. -/
theorem account_iff {doc serves rest failed asks doc' new fails : Prop}
    (h : doc' ∨ new ∨ fails ↔ doc ∨ serves ∨ asks) :
    (doc ∨ (serves ∨ rest) ∨ failed) ∨ asks ↔ doc' ∨ (rest ∨ new) ∨ failed ∨ fails := by
  by_cases hrest : rest
  · simp [hrest]
  · by_cases hfailed : failed
    · simp [hfailed]
    · simpa [hrest, hfailed, or_assoc] using h.symm

/-- **One answered step keeps account.** -/
theorem Accounted.step {a : Act Choice EnvAct} (h : Accounted cfg tr s) (ha : Answered s a)
    (hs : (system cfg).step s a = some s') : Accounted cfg (tr ++ [(s, a)]) s' := by
  have howned := Discipline.inv_step h.owned hs
  rcases system_step_cases hs with ⟨i, c, t, rest, ts, rfl, hr, hreacts⟩ | ⟨e, ts, rfl, hacts, hp⟩
  · have hok := (h.owned.ok t hr.mem).2
    refine ⟨howned, hreacts.docs_truthy hok h.docs, ?_⟩
    intro path
    have hget : ∀ f, t = .connector f → c = .fail → f.phase = .readCache := by
      rintro f rfl rfl
      exact ha f hr.get
    have hserves := hreacts.serves_iff hok hget path
    have hfailed : CachingFailed cfg (tr ++ [(s, .run i c)]) path ↔
        CachingFailed cfg tr path ∨ Reaction.losesResult cfg path ⟨s.store, t, c⟩ = true := by
      rw [CachingFailed, reactions_run hr]
      simp only [List.mem_append, List.mem_singleton, or_and_right, exists_or, exists_eq_left]
      rfl
    have hbefore : (∃ u ∈ s.pool, u.serves path = true) ↔
        t.serves path = true ∨ ∃ u ∈ rest, u.serves path = true := by
      simp only [hr.pool.mem_iff, List.mem_cons, or_and_right, exists_or, exists_eq_left]
    have hafter : (∃ u ∈ s'.pool, u.serves path = true) ↔
        (∃ u ∈ rest, u.serves path = true) ∨ ∃ u ∈ ts, u.serves path = true := by
      simp only [hr.mem_pool', or_and_right, exists_or]
    have hissued : 0 < issued cfg s' path ↔
        0 < issued cfg s path ∨ c = .proceed ∧ t.misses s.store.cache path = true := by
      rw [issued_runs hr]
      split_ifs with hmiss
      · exact iff_of_true (Nat.succ_pos _) (.inr hmiss)
      · rw [Nat.add_zero, or_iff_left hmiss]
    rw [hissued, h.issued_pos, hbefore, hafter, hfailed]
    exact account_iff hserves
  · have hremove : ∀ path, e ≠ .removeCacheEntry path := by
      rintro path rfl
      exact ha
    have hcache := hacts.cache hremove
    refine ⟨howned, ?_, ?_⟩
    · rw [hcache]
      exact h.docs
    · intro path
      have hnew := hacts.gets.2 path
      have hpool : (∃ u ∈ s'.pool, u.serves path = true) ↔ ∃ u ∈ s.pool, u.serves path = true := by
        rw [hp]
        simp only [List.mem_append, or_and_right, exists_or]
        exact or_iff_left (Task.not_exists_serves hnew)
      rw [issued_acts hacts hp, h.issued_pos, hcache, hpool, CachingFailed, CachingFailed,
        reactions_env]

/-- For a path that a task misses there is no document. -/
theorem Accounted.lookup_of_misses (h : Accounted cfg tr s) {t : Task} {path : String}
    (hmiss : t.misses s.store.cache path = true) : s.store.cache.docs.lookup path = none := by
  cases hdoc : s.store.cache.docs.lookup path with
  | none => rfl
  | some doc =>
    exfalso
    have htruthy := h.docs path doc hdoc
    have hcached : (s.store.cache.cached path).truthy = true := by
      simp only [ResourceCollection.cached, ResourceCollection.findOne, hdoc, Option.map_some]
      rw [Json.truthy_orNull]
      exact htruthy
    cases t with
    | connector f =>
      obtain ⟨-, -, hmiss⟩ := of_decide_eq_true hmiss
      exact hmiss hcached
    | _ => cases hmiss

/-- Nobody has asked for a path that a task misses just in case nothing for it is on its
way, or lost. -/
theorem Accounted.issued_eq_zero_iff (h : Accounted cfg tr s) {t : Task} {path : String}
    (hmiss : t.misses s.store.cache path = true) : issued cfg s path = 0 ↔
      (∀ u ∈ s.pool, u.serves path = false) ∧ ¬ CachingFailed cfg tr path := by
  rw [← Nat.le_zero, ← Nat.not_lt, h.issued_pos, h.lookup_of_misses hmiss]
  simp

/-- A step that finds nothing for a path asks for it first just in case nobody has. -/
theorem Accounted.firstMiss_iff {a : Act Choice EnvAct} (h : Accounted cfg tr s)
    (hone : ∀ path, issued cfg s path ≤ 1) (hs : (system cfg).step s a = some s') :
    (∀ path, issued cfg s' path ≤ 1) ↔ FirstMiss cfg tr s a := by
  rcases system_step_cases hs with ⟨i, c, t, rest, ts, rfl, hr, -⟩ | ⟨e, ts, rfl, hacts, hp⟩
  · -- One more GET is one too many, unless there was none.
    have hpath : ∀ path, issued cfg s' path ≤ 1 ↔
        (c = .proceed → t.misses s.store.cache path = true → issued cfg s path = 0) := by
      intro path
      have hle := hone path
      rw [issued_runs hr]
      split_ifs with hmiss
      · constructor
        · intro hle' _ _
          omega
        · intro hzero
          have hnone := hzero hmiss.1 hmiss.2
          omega
      · refine iff_of_true (by omega) ?_
        intro hc ht
        exact absurd ⟨hc, ht⟩ hmiss
    cases c with
    | proceed =>
      simp only [FirstMiss, hr.get, Option.some.injEq, forall_eq', hpath, true_implies]
      refine forall_congr' fun path => ?_
      exact forall_congr' fun hmiss => h.issued_eq_zero_iff hmiss
    | _ =>
      refine iff_of_true ?_ trivial
      intro path
      exact (hpath path).mpr fun hc => by cases hc
  · refine iff_of_true ?_ trivial
    intro path
    rw [issued_acts hacts hp]
    exact hone path

/-- **When a path is fetched only once.**  In every run in which all GETs are answered and
no cache entry is removed, at most one GET is issued for each path just in case every
connector that finds nothing in the cache is the first one to ask: nobody else is fetching
its path or caching it, and no result of it has failed to get into the cache. -/
theorem fetched_once_iff (cfg : Settings) (h : Run (system cfg).step initial tr s)
    (ha : ∀ p ∈ tr, Answered p.1 p.2) :
    (∀ path, issued cfg s path ≤ 1) ↔ Along (FirstMiss cfg) tr := by
  refine h.last_iff_along (I := Accounted cfg) (P := fun s => ∀ path, issued cfg s path ≤ 1) ha
    (accounted_initial cfg) ?_ (fun _ hI ha hs => hI.step ha hs) ?_
    fun hI hone hs => hI.firstMiss_iff hone hs
  · intro path
    exact Nat.zero_le 1
  · intro s a s' hs hone path
    exact (issued_mono hs path).trans (hone path)

/-- Steps without faults are answered. -/
theorem answered_of_faultless {a : Act Choice EnvAct} (h : faultless a = true) :
    Answered s a := by
  cases a with
  | run i c =>
    cases c with
    | fail => cases h
    | body data => exact h
    | _ => trivial
  | env e =>
    cases e with
    | removeCacheEntry path => cases h
    | _ => trivial

end Runs

theorem fetched_once_iff_sharedPath :
    ∃ tr s, Run (system ⟨2, "http://swapi", some⟩).step initial tr s ∧
      tr.map Prod.snd = sharedPath ∧
      ((∀ path, issued ⟨2, "http://swapi", some⟩ s path ≤ 1) ↔
        Along (FirstMiss ⟨2, "http://swapi", some⟩) tr) := by
  have hexec : (exec (system ⟨2, "http://swapi", some⟩).step initial sharedPath).any
      (fun _ => true) = true := by decide +kernel
  have hfault : ∀ a ∈ sharedPath, faultless a = true := by decide
  obtain ⟨tr, s, hrun, htr, -⟩ := exists_run_of_exec _ hexec
  rw [← htr, List.forall_mem_map] at hfault
  exact ⟨tr, s, hrun, htr, fetched_once_iff _ hrun fun p hp => answered_of_faultless (hfault p hp)⟩

/-- Two queries for the same path.  Both connectors read the cache before either GET is
answered. -/
def bothMiss : List (Act Choice EnvAct) :=
  [.env (.create ⟨["people/1"], none⟩ [⟨0⟩] ⟨1⟩), .run 0 (.read 0), .run 0 .proceed,
    .run 0 .proceed, .run 0 .proceed,
    .env (.create ⟨["people/1"], none⟩ [⟨2⟩] ⟨3⟩), .run 1 (.read 0), .run 1 .proceed,
    .run 1 .proceed, .run 1 .proceed,
    -- Both are admitted.
    .run 0 .proceed, .run 0 .proceed, .run 0 .proceed, .run 0 .proceed, .run 0 .proceed,
    .run 0 .proceed,
    -- Both are delivered to connectors, which read the cache.
    .run 0 .proceed, .run 1 .proceed, .run 2 .proceed, .run 2 .proceed,
    .run 2 (.body (.structured "\x7b\x7d")), .run 2 (.body (.structured "\x7b\x7d"))]

/-- **A path that is fetched twice**, with no fault and no removal. -/
theorem fetched_twice :
    ∃ tr s, Run (system ⟨2, "http://swapi", some⟩).step initial tr s ∧ tr.map Prod.snd = bothMiss ∧
      (∀ p ∈ tr, Answered p.1 p.2) ∧
      s.store.gets = [⟨"http://swapi/people/1", some (.structured "\x7b\x7d")⟩,
        ⟨"http://swapi/people/1", some (.structured "\x7b\x7d")⟩] ∧
      issued ⟨2, "http://swapi", some⟩ s "people/1" = 2 := by
  have hexec : (exec (system ⟨2, "http://swapi", some⟩).step initial bothMiss).any (fun s =>
      s.store.gets = [⟨"http://swapi/people/1", some (.structured "\x7b\x7d")⟩,
          ⟨"http://swapi/people/1", some (.structured "\x7b\x7d")⟩] ∧
        issued ⟨2, "http://swapi", some⟩ s "people/1" = 2) = true := by decide +kernel
  have hfault : ∀ a ∈ bothMiss, faultless a = true := by decide
  obtain ⟨tr, s, hrun, htr, hp⟩ := exists_run_of_exec _ hexec
  rw [← htr, List.forall_mem_map] at hfault
  obtain ⟨hgets, hissued⟩ := of_decide_eq_true hp
  exact ⟨tr, s, hrun, htr, fun p hp => answered_of_faultless (hfault p hp), hgets, hissued⟩

end SwapiService
