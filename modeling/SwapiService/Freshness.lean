import Mathlib.Logic.Function.Basic
import SwapiService.CacheManager
import SwapiService.Lib.DocumentStore

/-!
# The age of what is cached

The collection again, now with the documents as MongoDB stores them, and with its TTL
index.  The index is on `createdAt`; the entity has no such column, so that neither of the
two ways to save it writes the field, and the monitor removes nothing.  What is cached
stays until the next update of its path.

## Main definitions

* `SwapiResourceEntity.columns` — the columns of the entity, as fields of a document.
* `ResourceDocuments`, with `findOne` and `save` — the collection, document by document.
* `Refines` — it stores what a `ResourceCollection` says.
* `cacheOverTime` — the machine: updates, reads and the passing of time.
* `ReadsFresh` — a read does not return a value that is older than a day.

## Main results

* `Refines.step` — `updateCache` does the same to both.
* `cacheInv_of_run` — nothing is ever removed.
* `reads_fresh_iff` — all reads are fresh just in case none comes too late.
* `stale_read` — a read that comes too late.
-/

namespace SwapiService

open DocumentStore TaskPool Transition

/-! ### The collection -/

/-- The columns of the entity, as the fields of its document. -/
def SwapiResourceEntity.columns (e : SwapiResourceEntity) (objectId : ℕ) : Document Json :=
  ⟨[("_id", .objectId objectId), ("path", .data (.str e.path)),
    ("cached_result", .data e.cachedResult)]⟩

/-- The entity a document is loaded into. -/
def resourceEntity (d : Document Json) : SwapiResourceEntity where
  objectId :=
    match d.get "_id" with
    | some (.objectId i) => some i
    | _ => none
  path :=
    match d.get "path" with
    | some (.data (.str path)) => path
    | _ => ""
  cachedResult :=
    match d.get "cached_result" with
    | some (.data result) => result
    | _ => .null

/-- `db.resourceCollection.createIndex({ createdAt: 1 }, { expireAfterSeconds: 86400 })`. -/
def createdAtIndex : TtlIndex := ⟨"createdAt", 86400 * 1000⟩

/-- The documents, of which there is one at most for each path, and the next `_id`. -/
structure ResourceDocuments where
  docs : String → Option (Document Json)
  nextObjectId : ℕ

namespace ResourceDocuments

/-- No document. -/
def empty : ResourceDocuments := ⟨fun _ => none, 0⟩

/-- `swapiResourceRepository.findOne({ where: { path } })`. -/
def findOne (m : ResourceDocuments) (path : String) : Option SwapiResourceEntity :=
  (m.docs path).map resourceEntity

/-- The collection with a document for the path. -/
def put (m : ResourceDocuments) (path : String) (d : Document Json) : ResourceDocuments :=
  { m with docs := Function.update m.docs path (some d) }

/-- `swapiResourceRepository.save`: a new entity becomes a document, an entity that was
loaded has its columns set in the document it was loaded from. -/
def save (m : ResourceDocuments) (e : SwapiResourceEntity) : Option ResourceDocuments :=
  match e.objectId, m.docs e.path with
  | none, none =>
      some { m.put e.path (e.columns m.nextObjectId) with nextObjectId := m.nextObjectId + 1 }
  | none, some _ => none
  | some i, none => some (m.put e.path (e.columns i))
  | some i, some d =>
      if (resourceEntity d).objectId = some i then some (m.put e.path (d.set (e.columns i)))
      else none

/-- One segment of `updateCache`. -/
def step (m : ResourceDocuments) (u : CacheUpdate) :
    Choice → Option (ResourceDocuments × Outcome CacheUpdate)
  | .fail => some (m, .rejected)
  | .proceed =>
      match u.phase with
      | .findOne =>
          some (m, .suspended ⟨u.dto, .save (updatedResource (m.findOne u.dto.path) u.dto)⟩)
      | .save resource =>
          match m.save resource with
          | some m' => some (m', .resolved)
          | none => some (m, .rejected)
  | _ => none

/-- `readCacheAsync`. -/
def readCacheAsync (m : ResourceDocuments) (dto : SubqueryDto) : SubqueryDto :=
  { dto with
    result :=
      match m.findOne dto.path with
      | some resource => resource.cachedResult.orNull
      | none => .null }

/-- The TTL monitor runs. -/
def expire (m : ResourceDocuments) (now : ℕ) : ResourceDocuments :=
  { m with docs := createdAtIndex.monitor now m.docs }

end ResourceDocuments

/-! ### What the documents say -/

/-- The document of a path stores what the collection says. -/
structure Stores (path : String) (d : Document Json) (r : ResourceDocument) : Prop where
  objectId : d.get "_id" = some (.objectId r.objectId)
  path : d.get "path" = some (.data (.str path))
  cachedResult : d.get "cached_result" = some (.data r.cachedResult)

/-- The documents store what the collection says. -/
structure Refines (m : ResourceDocuments) (c : ResourceCollection) : Prop where
  docs : ∀ path, Option.Rel (Stores path) (m.docs path) (c.docs.lookup path)
  nextObjectId : m.nextObjectId = c.nextObjectId

theorem stores_columns (e : SwapiResourceEntity) (i : ℕ) :
    Stores e.path (e.columns i) ⟨i, e.cachedResult⟩ := ⟨rfl, rfl, rfl⟩

/-- Setting the columns leaves nothing of what they were before. -/
theorem stores_set (d : Document Json) (e : SwapiResourceEntity) (i : ℕ) :
    Stores e.path (d.set (e.columns i)) ⟨i, e.cachedResult⟩ := by
  refine ⟨?_, ?_, ?_⟩
  · rw [Document.get_set]
    rfl
  · rw [Document.get_set]
    rfl
  · rw [Document.get_set]
    rfl

theorem Stores.resourceEntity_eq {path : String} {d : Document Json} {r : ResourceDocument}
    (h : Stores path d r) : resourceEntity d = ⟨some r.objectId, path, r.cachedResult⟩ := by
  unfold resourceEntity
  rw [h.objectId, h.path, h.cachedResult]

section Refines

variable {m : ResourceDocuments} {c : ResourceCollection}

theorem Refines.findOne_eq (h : Refines m c) (path : String) : m.findOne path = c.findOne path := by
  unfold ResourceDocuments.findOne ResourceCollection.findOne
  have hrel := h.docs path
  generalize m.docs path = d at hrel
  generalize c.docs.lookup path = r at hrel
  cases hrel with
  | none => rfl
  | some hstores =>
    rw [Option.map_some, Option.map_some, hstores.resourceEntity_eq]

/-- A read returns the same from both. -/
theorem Refines.readCacheAsync_eq (h : Refines m c) (dto : SubqueryDto) :
    m.readCacheAsync dto = readCacheAsync c dto := by
  unfold ResourceDocuments.readCacheAsync
  rw [h.findOne_eq]
  rfl

/-- Both get a document for the path. -/
theorem Refines.put (h : Refines m c) {path : String} {d : Document Json} {r : ResourceDocument}
    (hstores : Stores path d r) (n : ℕ) :
    Refines { m.put path d with nextObjectId := n } ⟨c.docs.insert path r, n⟩ := by
  refine ⟨?_, rfl⟩
  intro path'
  show Option.Rel _ (Function.update m.docs path (some d) path') _
  by_cases hpath : path' = path
  · subst hpath
    rw [Function.update_self, AList.lookup_insert]
    exact .some hstores
  · rw [Function.update_of_ne hpath, AList.lookup_insert_ne hpath]
    exact h.docs path'

/-- **A save does the same to both.** -/
theorem Refines.save (h : Refines m c) (e : SwapiResourceEntity) :
    Option.Rel Refines (m.save e) (c.save e) := by
  have hrel := h.docs e.path
  unfold ResourceDocuments.save ResourceCollection.save
  generalize hd : m.docs e.path = d at hrel
  generalize hr : c.docs.lookup e.path = r at hrel
  cases hrel with
  | none =>
    cases e.objectId with
    | none =>
      rw [h.nextObjectId]
      exact .some (h.put (stores_columns e c.nextObjectId) (c.nextObjectId + 1))
    | some i =>
      have hput := h.put (stores_columns e i) c.nextObjectId
      rw [← h.nextObjectId] at hput
      exact .some ⟨hput.docs, h.nextObjectId⟩
  | @some d r hstores =>
    cases e.objectId with
    | none => exact .none
    | some i =>
      show Option.Rel Refines (if _ then _ else _) (if _ then _ else _)
      rw [hstores.resourceEntity_eq]
      by_cases hi : r.objectId = i
      · rw [if_pos (congrArg some hi), if_pos hi]
        have hput := h.put (stores_set d e i) c.nextObjectId
        exact .some ⟨hput.docs, h.nextObjectId⟩
      · rw [if_neg (fun heq => hi (Option.some.inj heq)), if_neg hi]
        exact .none

/-- **A segment of `updateCache` does the same to both.** -/
theorem Refines.step (h : Refines m c) {u : CacheUpdate} {ch : Choice} {m' : ResourceDocuments}
    {out : Outcome CacheUpdate} (hs : m.step u ch = some (m', out)) :
    ∃ c', u.step c ch = some (c', out) ∧ Refines m' c' := by
  obtain ⟨dto, phase⟩ := u
  cases ch with
  | fail =>
    cases hs
    exact ⟨c, rfl, h⟩
  | proceed =>
    cases phase with
    | findOne =>
      cases hs
      refine ⟨c, ?_, h⟩
      rw [h.findOne_eq]
      rfl
    | save resource =>
      have hrel := h.save resource
      simp only [ResourceDocuments.step] at hs
      simp only [CacheUpdate.step]
      generalize m.save resource = saved at hrel hs
      generalize c.save resource = saved' at hrel
      cases hrel with
      | none =>
        cases hs
        exact ⟨c, rfl, h⟩
      | some hrefines =>
        cases hs
        exact ⟨_, rfl, hrefines⟩
  | _ => cases hs

end Refines

/-! ### No date -/

/-- No document has a field `createdAt`. -/
def ResourceDocuments.Undated (m : ResourceDocuments) : Prop :=
  ∀ path d, m.docs path = some d → d.get createdAtIndex.field = none

section Undated

variable {m m' : ResourceDocuments}

theorem ResourceDocuments.Undated.put (h : m.Undated) {path : String} {d : Document Json}
    (hd : d.get createdAtIndex.field = none) (n : ℕ) :
    Undated { m.put path d with nextObjectId := n } := by
  intro path' d' hd'
  by_cases hpath : path' = path
  · subst hpath
    obtain rfl : d = d' := by simpa [ResourceDocuments.put] using hd'
    exact hd
  · refine h path' d' ?_
    simpa [ResourceDocuments.put, hpath] using hd'

/-- **No save writes the field**, neither the first one for a path nor a later one. -/
theorem ResourceDocuments.Undated.save (h : m.Undated) {e : SwapiResourceEntity}
    (hs : m.save e = some m') : m'.Undated := by
  have hcolumns : ∀ i, (e.columns i).get createdAtIndex.field = none := fun _ => rfl
  unfold ResourceDocuments.save at hs
  split at hs
  · obtain rfl := Option.some.inj hs
    exact h.put (hcolumns _) _
  · cases hs
  · obtain rfl := Option.some.inj hs
    exact h.put (hcolumns _) m.nextObjectId
  · next i d _ hd =>
    split_ifs at hs
    obtain rfl := Option.some.inj hs
    refine h.put ?_ m.nextObjectId
    rw [Document.get_set, hcolumns, Option.none_or]
    exact h e.path d hd

theorem ResourceDocuments.Undated.step (h : m.Undated) {u : CacheUpdate} {ch : Choice}
    {out : Outcome CacheUpdate} (hs : m.step u ch = some (m', out)) : m'.Undated := by
  obtain ⟨dto, phase⟩ := u
  cases ch with
  | fail => cases hs; exact h
  | proceed =>
    cases phase with
    | findOne => cases hs; exact h
    | save resource =>
      simp only [ResourceDocuments.step] at hs
      split at hs
      · next hsave =>
        cases hs
        exact h.save hsave
      · cases hs
        exact h
  | _ => cases hs

/-- **The monitor removes nothing.** -/
theorem ResourceDocuments.Undated.expire_eq (h : m.Undated) (now : ℕ) : m.expire now = m := by
  unfold ResourceDocuments.expire
  rw [TtlIndex.monitor_eq_self h]

end Undated

/-! ### Over time -/

/-- A save of `updateCache` that succeeded: when, and for which path. -/
structure CacheWrite where
  time : ℕ
  path : String
  deriving DecidableEq, Repr

/-- The documents, the clock, and what was saved. -/
structure CacheStore where
  documents : ResourceDocuments
  clock : ℕ
  writes : List CacheWrite

/-- `updateCache` is called; `readCacheAsync` is called, which only reads; time passes,
and then the TTL monitor runs. -/
inductive CacheAct
  | updateCache (dto : SubqueryDto)
  | readCacheAsync (dto : SubqueryDto)
  | tick (ms : ℕ)
  deriving DecidableEq, Repr

/-- What a segment of `updateCache` saves: it is done once its save has succeeded. -/
def CacheUpdate.writes (u : CacheUpdate) (clock : ℕ) : Outcome CacheUpdate → List CacheWrite
  | .resolved => [⟨clock, u.dto.path⟩]
  | _ => []

/-- One segment of `updateCache`. -/
def cacheReact (s : CacheStore) (u : CacheUpdate) (c : Choice) :
    Option (CacheStore × List CacheUpdate) :=
  (s.documents.step u c).map fun r =>
    (⟨r.1, s.clock, s.writes ++ u.writes s.clock r.2⟩, r.2.tasks id)

/-- What happens from outside. -/
def cacheEnvironment (s : CacheStore) : CacheAct → Option (CacheStore × List CacheUpdate)
  | .updateCache dto => some (s, (SwapiService.updateCache dto).tasks id)
  | .readCacheAsync _ => some (s, [])
  | .tick ms =>
      some ({ s with clock := s.clock + ms, documents := s.documents.expire (s.clock + ms) }, [])

/-- The calls of `updateCache`, in any order and overlapping as they like. -/
def cacheOverTime : Machine CacheStore CacheUpdate Choice CacheAct := ⟨cacheReact, cacheEnvironment⟩

/-- Nothing cached. -/
def nothingCached : Config CacheStore CacheUpdate := ⟨⟨.empty, 0, []⟩, []⟩

/-- When the path was saved last. -/
def CacheStore.lastWrite (s : CacheStore) (path : String) : Option ℕ :=
  ((s.writes.filter fun w => w.path = path).getLast?).map CacheWrite.time

/-- The path was saved in the last day, or never. -/
def CacheStore.Recent (s : CacheStore) (path : String) : Prop :=
  ∀ t ∈ s.lastWrite path, s.clock ≤ t + 86400 * 1000

/-- A read does not return a value that was saved more than a day ago. -/
def ReadsFresh (s : Config CacheStore CacheUpdate) : Act Choice CacheAct → Prop
  | .env (.readCacheAsync dto) =>
      (s.store.documents.readCacheAsync dto).result ≠ .null → s.store.Recent dto.path
  | _ => True

/-- A read comes at most a day after the last save of its path, or before the first. -/
def ReadsInTime (s : Config CacheStore CacheUpdate) : Act Choice CacheAct → Prop
  | .env (.readCacheAsync dto) => s.store.Recent dto.path
  | _ => True

/-- The documents have no date, and a path that was ever saved is cached. -/
structure CacheInv (s : Config CacheStore CacheUpdate) : Prop where
  undated : s.store.documents.Undated
  ok : ∀ u ∈ s.pool, u.Ok
  cached : ∃ c, Refines s.store.documents c ∧
    ∀ path, s.store.lastWrite path ≠ none → (c.cached path).truthy = true

theorem CacheStore.lastWrite_snoc (m : ResourceDocuments) (s : CacheStore) (w : CacheWrite)
    (path : String) :
    (⟨m, s.clock, s.writes ++ [w]⟩ : CacheStore).lastWrite path
      = if w.path = path then some w.time else s.lastWrite path := by
  unfold lastWrite
  rw [List.filter_append]
  by_cases hpath : w.path = path
  · rw [if_pos hpath, List.filter_singleton, decide_eq_true hpath, List.getLast?_append]
    rfl
  · rw [if_neg hpath, List.filter_singleton, decide_eq_false hpath]
    exact congrArg _ (congrArg _ (List.append_nil _))

/-- **A segment leaves every path that was ever saved cached.** -/
theorem CacheStore.cached_of_fires {s : CacheStore} {m' : ResourceDocuments}
    {c c' : ResourceCollection} {u : CacheUpdate} {ch : Choice} {out : Outcome CacheUpdate}
    (hok : u.Ok) (hfires : CacheUpdate.Fires c u.dto u.phase ch c' out)
    (hcached : ∀ path, s.lastWrite path ≠ none → (c.cached path).truthy = true) (path : String)
    (hwritten : (⟨m', s.clock, s.writes ++ u.writes s.clock out⟩ : CacheStore).lastWrite path
      ≠ none) : (c'.cached path).truthy = true := by
  obtain ⟨dto, phase⟩ := u
  cases hfires with
  | saved resource _ hsave =>
    -- The path that was saved has the result of the event; the others are as before.
    obtain ⟨hpath, hresult⟩ := hok.2 resource rfl
    have htruthy : dto.result.truthy = true := hok.1
    rw [ResourceCollection.cached_save hsave, hpath, hresult]
    by_cases hp : path = dto.path
    · rw [if_pos hp, Json.truthy_orNull]
      exact htruthy
    · rw [if_neg hp]
      apply hcached
      have hlast := s.lastWrite_snoc m' ⟨s.clock, dto.path⟩ path
      rw [if_neg (Ne.symm hp)] at hlast
      rw [← hlast]
      exact hwritten
  | _ =>
    have hnothing : s.writes ++ [] = s.writes := List.append_nil _
    apply hcached
    intro hnone
    apply hwritten
    show (((s.writes ++ []).filter _).getLast?).map _ = none
    rw [hnothing]
    exact hnone

section Runs

variable {s s' : Config CacheStore CacheUpdate}
  {tr : List (Config CacheStore CacheUpdate × Act Choice CacheAct)}

theorem cacheInv_nothingCached : CacheInv nothingCached where
  undated path d hd := by cases hd
  ok u hu := by cases hu
  cached := by
    refine ⟨.empty, ⟨?_, rfl⟩, ?_⟩
    · intro path
      exact .none
    · intro path hpath
      exact absurd rfl hpath

/-- **One step keeps the invariant.** -/
theorem cacheInv_step {a : Act Choice CacheAct} (hI : CacheInv s)
    (hs : cacheOverTime.step s a = some s') : CacheInv s' := by
  obtain ⟨c, hrefines, hcached⟩ := hI.cached
  obtain ⟨store', pool'⟩ := s'
  rcases Machine.step_cases hs with ⟨i, ch, u, rest, ts, -, hr⟩ | ⟨e, ts, -, henv, hpool⟩
  · obtain ⟨⟨m', out⟩, hstep, heq⟩ := Option.map_eq_some_iff.mp hr.react
    obtain ⟨hstore, hts⟩ := Prod.mk.inj heq
    obtain rfl : store' = _ := hstore.symm
    obtain ⟨c', hstep', hrefines'⟩ := hrefines.step hstep
    have hok := hI.ok u hr.mem
    have hfires := CacheUpdate.fires_of_step hstep'
    refine ⟨hI.undated.step hstep, ?_, c', hrefines', ?_⟩
    · intro v hv
      rcases hr.mem_pool'.mp hv with hv | hv
      · exact hI.ok v (hr.mem_of_rest hv)
      · rw [← hts] at hv
        refine Outcome.forall_tasks ?_ v hv
        rintro v rfl
        exact (CacheUpdate.ok_of_fires hok hfires).1
    · exact CacheStore.cached_of_fires hok hfires hcached
  · obtain rfl : pool' = s.pool ++ ts := hpool
    cases e with
    | updateCache dto =>
      obtain ⟨rfl, rfl⟩ := Prod.mk.inj (Option.some.inj henv)
      refine ⟨hI.undated, ?_, c, hrefines, hcached⟩
      intro u hu
      rcases List.mem_append.mp hu with hu | hu
      · exact hI.ok u hu
      · refine Outcome.forall_tasks ?_ u hu
        intro v hv
        exact (CacheUpdate.ok_updateCache hv).1
    | readCacheAsync dto =>
      obtain ⟨rfl, rfl⟩ := Prod.mk.inj (Option.some.inj henv)
      rw [List.append_nil]
      exact hI
    | tick ms =>
      obtain ⟨rfl, rfl⟩ := Prod.mk.inj (Option.some.inj henv)
      rw [List.append_nil, hI.undated.expire_eq]
      exact ⟨hI.undated, hI.ok, c, hrefines, hcached⟩

/-- **Nothing is ever removed**: in every run a path that was saved is cached. -/
theorem cacheInv_of_run (h : Run cacheOverTime.step nothingCached tr s) : CacheInv s :=
  h.invariant cacheInv_nothingCached cacheInv_step

/-- **When reads are fresh.**  In every run all reads are fresh just in case none comes more
than a day after the last save of its path. -/
theorem reads_fresh_iff (h : Run cacheOverTime.step nothingCached tr s) :
    (∀ p ∈ tr, ReadsFresh p.1 p.2) ↔ ∀ p ∈ tr, ReadsInTime p.1 p.2 := by
  have hread : ∀ p ∈ tr, (ReadsFresh p.1 p.2 ↔ ReadsInTime p.1 p.2) := by
    rintro ⟨t, a⟩ hp
    obtain ⟨tr₁, -, -, -, hrun, -⟩ := h.of_mem hp
    obtain ⟨c, hrefines, hcached⟩ := (cacheInv_of_run hrun).cached
    cases a with
    | run i c => exact Iff.rfl
    | env e =>
      cases e with
      | updateCache dto => exact Iff.rfl
      | tick ms => exact Iff.rfl
      | readCacheAsync dto =>
        constructor
        · intro hfresh w hw
          refine hfresh ?_ w hw
          rw [hrefines.readCacheAsync_eq]
          apply Json.ne_null_of_truthy
          apply hcached
          intro hnone
          rw [hnone] at hw
          cases hw
        · intro htime _
          exact htime
  constructor
  · intro hall p hp
    exact (hread p hp).mp (hall p hp)
  · intro hall p hp
    exact (hread p hp).mpr (hall p hp)

end Runs

/-- A result is cached, and read again a day and a millisecond later. -/
def lateRead : List (Act Choice CacheAct) :=
  [.env (.updateCache ⟨⟨0⟩, "people/1", ⟨1⟩, .structured "\x7b\x7d"⟩), .run 0 .proceed,
    .run 0 .proceed, .env (.tick 86400001),
    .env (.readCacheAsync ⟨⟨2⟩, "people/1", ⟨3⟩, .null⟩)]

theorem reads_fresh_iff_lateRead :
    ∃ tr s, Run cacheOverTime.step nothingCached tr s ∧ tr.map Prod.snd = lateRead ∧
      ((∀ p ∈ tr, ReadsFresh p.1 p.2) ↔ ∀ p ∈ tr, ReadsInTime p.1 p.2) := by
  have hexec : (exec cacheOverTime.step nothingCached lateRead).any (fun _ => true) = true := by
    decide +kernel
  obtain ⟨tr, s, hrun, htr, -⟩ := exists_run_of_exec _ hexec
  exact ⟨tr, s, hrun, htr, reads_fresh_iff hrun⟩

/-- **A stale read**: the value was saved more than a day before. -/
theorem stale_read :
    ∃ tr s, Run cacheOverTime.step nothingCached tr s ∧ tr.map Prod.snd = lateRead ∧
      ¬ ∀ p ∈ tr, ReadsFresh p.1 p.2 := by
  have hexec : (exec cacheOverTime.step nothingCached lateRead.dropLast).any (fun s =>
      (s.store.documents.readCacheAsync ⟨⟨2⟩, "people/1", ⟨3⟩, .null⟩).result
          = .structured "\x7b\x7d" ∧
        s.store.lastWrite "people/1" = some 0 ∧ s.store.clock = 86400001) = true := by
    decide +kernel
  obtain ⟨tr, s, hrun, htr, hp⟩ := exists_run_of_exec _ hexec
  obtain ⟨hresult, hlast, hclock⟩ := of_decide_eq_true hp
  have hread : cacheOverTime.step s (.env (.readCacheAsync ⟨⟨2⟩, "people/1", ⟨3⟩, .null⟩))
      = some ⟨s.store, s.pool ++ []⟩ := rfl
  refine ⟨_, _, hrun.snoc hread, ?_, ?_⟩
  · rw [List.map_append, htr]
    rfl
  · intro hall
    have hfresh := hall (s, _) (List.mem_append_right _ List.mem_cons_self)
    have hle : s.store.clock ≤ 0 + 86400 * 1000 := by
      refine hfresh ?_ 0 hlast
      rw [hresult]
      exact Json.ne_null_of_truthy rfl
    rw [hclock] at hle
    omega

end SwapiService
