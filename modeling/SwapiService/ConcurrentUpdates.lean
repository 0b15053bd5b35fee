import SwapiService.Sequential
import SwapiService.Lib.UniqueIndex

/-!
# Overlapping cache updates

A call of `updateCache` looks for a document and then saves one, and other calls may come in
between.  Here the collection is as MongoDB keeps it: a list of documents, with a unique
index on `path` that refuses a second document for a path.

A call that finds a document replaces it, whatever has happened since.  A call that finds
none inserts one, which is refused if another call was faster.

## Main definitions

* `Resources`, with `findOne` and `save` — the collection.
* `concurrentUpdates` — the machine: calls of `updateCache`, in any order.
* `UpdatesSafe` — all calls have succeeded, and reads return what they should.
* `Overlaps` — a call finds no document while another one is about to insert it.

## Main results

* `updatesInv_of_run` — what is stored and who still waits, in every run.
* `reachable_of_run` — these are runs of the machine of all the handlers.
* `length_le_of_run`, `exists_all_over` — all calls come to their end.
* `safe_iff_of_run`, `concurrent_updates_safe_iff` — when the calls are safe.
* `second_insert_refused` — two calls for one path.
-/

namespace SwapiService

open TaskPool Transition UniqueIndex

/-! ### The collection -/

/-- The collection `resourceCollection`, with its unique index on `path`. -/
abbrev Resources := Collection String Json

namespace Resources

/-- `swapiResourceRepository.findOne({ where: { path } })`. -/
def findOne (c : Resources) (path : String) : Option SwapiResourceEntity :=
  (c.find path).map fun d => ⟨some d.id, d.key, d.value⟩

/-- `swapiResourceRepository.save`: an entity without `_id` is inserted, one with an `_id`
replaces the document with that `_id`. -/
def save (c : Resources) (e : SwapiResourceEntity) : Option Resources :=
  match e.objectId with
  | none => c.insert e.path e.cachedResult
  | some i => c.replace i e.path e.cachedResult

/-- `readCacheAsync`. -/
def readCacheAsync (c : Resources) (dto : SubqueryDto) : SubqueryDto :=
  { dto with
    result :=
      match c.findOne dto.path with
      | some resource => resource.cachedResult.orNull
      | none => .null }

/-- One segment of `updateCache`: its `findOne`, or its `save`. -/
def update (c : Resources) (u : CacheUpdate) : Resources × Outcome CacheUpdate :=
  match u.phase with
  | .findOne => (c, .suspended ⟨u.dto, .save (updatedResource (c.findOne u.dto.path) u.dto)⟩)
  | .save resource =>
      match c.save resource with
      | some c' => (c', .resolved)
      | none => (c, .rejected)

end Resources

/-- An activation knows what it will save: the result of its event, under the path of its
event, and in place of the document it has found, which is still there. -/
structure CacheUpdate.Knows (c : Resources) (u : CacheUpdate) : Prop where
  ok : u.Ok
  found : ∀ resource i, u.phase = .save resource → resource.objectId = some i →
    ∃ d, c.find u.dto.path = some d ∧ d.id = i

/-- The activation has found no document, and is about to insert one. -/
def CacheUpdate.inserts (u : CacheUpdate) : Bool :=
  match u.phase with
  | .findOne => false
  | .save resource => resource.objectId.isNone

/-- It is about to insert one for the path. -/
def CacheUpdate.insertsAt (path : String) (u : CacheUpdate) : Bool := u.dto.path = path && u.inserts

theorem CacheUpdate.insertsAt_findOne (dto : SubqueryDto) (path : String) :
    (⟨dto, .findOne⟩ : CacheUpdate).insertsAt path = false := by
  simp [insertsAt, inserts]

theorem CacheUpdate.insertsAt_new (dto : SubqueryDto) (path : String) :
    (⟨dto, .save ⟨none, dto.path, dto.result⟩⟩ : CacheUpdate).insertsAt path = true
      ↔ dto.path = path := by
  simp [insertsAt, inserts]

theorem CacheUpdate.insertsAt_found (dto : SubqueryDto) (i : ℕ) (path : String) :
    (⟨dto, .save ⟨some i, dto.path, dto.result⟩⟩ : CacheUpdate).insertsAt path = false := by
  simp [insertsAt, inserts]

/-- The segments of `updateCache`, case by case. -/
inductive Resources.Updates (c : Resources) (dto : SubqueryDto) :
    UpdatePhase → Resources → Outcome CacheUpdate → Prop
  | missing (h : c.find dto.path = none) :
      Updates c dto .findOne c (.suspended ⟨dto, .save ⟨none, dto.path, dto.result⟩⟩)
  | found (d : Document String Json) (h : c.find dto.path = some d) :
      Updates c dto .findOne c (.suspended ⟨dto, .save ⟨some d.id, dto.path, dto.result⟩⟩)
  | inserted (c' : Resources) (h : c.find dto.path = none)
      (hs : c.insert dto.path dto.result = some c') :
      Updates c dto (.save ⟨none, dto.path, dto.result⟩) c' .resolved
  | refused (h : c.find dto.path ≠ none) :
      Updates c dto (.save ⟨none, dto.path, dto.result⟩) c .rejected
  | replaced (d : Document String Json) (c' : Resources) (h : c.find dto.path = some d)
      (hs : c.replace d.id dto.path dto.result = some c') :
      Updates c dto (.save ⟨some d.id, dto.path, dto.result⟩) c' .resolved

section Segments

variable {c c' : Resources} {u : CacheUpdate} {dto : SubqueryDto} {phase : UpdatePhase}
  {out : Outcome CacheUpdate}

/-- **What one segment of `updateCache` can do.** -/
theorem Resources.updates_of_update (hu : u.Knows c) (h : c.update u = (c', out)) :
    Updates c u.dto u.phase c' out := by
  obtain ⟨dto, phase⟩ := u
  cases phase with
  | findOne =>
    obtain ⟨rfl, rfl⟩ := Prod.mk.inj h
    cases hfind : c.find dto.path with
    | none =>
      have hnew : updatedResource (c.findOne dto.path) dto = ⟨none, dto.path, dto.result⟩ := by
        rw [Resources.findOne, hfind]
        rfl
      rw [hnew]
      exact .missing hfind
    | some d =>
      have hold : updatedResource (c.findOne dto.path) dto
          = ⟨some d.id, dto.path, dto.result⟩ := by
        rw [Resources.findOne, hfind]
        rfl
      rw [hold]
      exact .found d hfind
  | save resource =>
    obtain ⟨objectId, path, result⟩ := resource
    obtain ⟨hpath, hresult⟩ := hu.ok.2 _ rfl
    obtain rfl : path = dto.path := hpath
    obtain rfl : result = dto.result := hresult
    cases objectId with
    | none =>
      simp only [Resources.update, Resources.save] at h
      split at h
      · next c₁ hs =>
        obtain ⟨rfl, rfl⟩ := Prod.mk.inj h
        have hfind : c.find dto.path = none := by
          by_contra hne
          rw [Collection.insert_eq_none_iff.mpr hne] at hs
          cases hs
        exact .inserted _ hfind hs
      · next hs =>
        obtain ⟨rfl, rfl⟩ := Prod.mk.inj h
        exact .refused (Collection.insert_eq_none_iff.mp hs)
    | some i =>
      obtain ⟨d, hfind, rfl⟩ := hu.found _ i rfl rfl
      obtain ⟨c₁, hs⟩ := Collection.exists_replace hfind dto.result
      simp only [Resources.update, Resources.save, hs] at h
      obtain ⟨rfl, rfl⟩ := Prod.mk.inj h
      exact .replaced d _ hfind hs

/-- **What a segment leaves of the documents**: those of other paths, and of its own path
the id, once there is one. -/
theorem Resources.find_of_updates (h : Updates c dto phase c' out) (path : String) :
    c'.find path = c.find path ∨
      path = dto.path ∧ ∃ i, c'.find path = some ⟨i, path, dto.result⟩ ∧
        ∀ d, c.find path = some d → d.id = i := by
  cases h with
  | inserted _ hfind hs =>
    rw [Collection.find_insert hs]
    split_ifs with hpath
    · subst hpath
      refine .inr ⟨rfl, _, rfl, fun d hd => ?_⟩
      rw [hfind] at hd
      cases hd
    · exact .inl rfl
  | replaced d _ hfind hs =>
    rw [Collection.find_replace hfind hs]
    split_ifs with hpath
    · subst hpath
      refine .inr ⟨rfl, _, rfl, fun d' hd' => ?_⟩
      rw [hfind] at hd'
      rw [Option.some.inj hd']
    · exact .inl rfl
  | _ => exact .inl rfl

/-- No document is ever removed. -/
theorem Resources.find_eq_none_of_updates (h : Updates c dto phase c' out) {path : String}
    (hpath : c'.find path = none) : c.find path = none := by
  rcases Resources.find_of_updates h path with heq | ⟨-, i, hnew, -⟩
  · rw [← heq, hpath]
  · rw [hpath] at hnew
    cases hnew

/-- What an activation knows survives the segments of the others. -/
theorem CacheUpdate.Knows.frame (hu : u.Knows c) (h : Resources.Updates c dto phase c' out) :
    u.Knows c' := by
  refine ⟨hu.ok, fun resource i hphase hi => ?_⟩
  obtain ⟨d, hd, hid⟩ := hu.found resource i hphase hi
  rcases Resources.find_of_updates h u.dto.path with heq | ⟨-, j, hnew, hkeeps⟩
  · exact ⟨d, heq.trans hd, hid⟩
  · exact ⟨_, hnew, (hkeeps d hd).symm.trans hid⟩

/-- An activation that goes on has looked for a document, and inserts one if there was none. -/
theorem Resources.suspended_of_updates {u' : CacheUpdate}
    (h : Updates c dto phase c' (.suspended u')) :
    phase = .findOne ∧ c' = c ∧ u'.dto = dto ∧ (u'.inserts = true ↔ c.find dto.path = none) := by
  cases h with
  | missing hfind => exact ⟨rfl, rfl, rfl, iff_of_true rfl hfind⟩
  | found d hfind =>
    refine ⟨rfl, rfl, rfl, iff_of_false Bool.false_ne_true ?_⟩
    rw [hfind]
    exact nofun

/-- It goes on, or its result is stored, or its insertion is refused. -/
theorem Resources.over_of_updates (h : Updates c dto phase c' out) :
    (∃ u', out = .suspended u') ∨ (∃ i, c'.find dto.path = some ⟨i, dto.path, dto.result⟩) ∨
      c.find dto.path ≠ none ∧ CacheUpdate.inserts ⟨dto, phase⟩ = true := by
  cases h with
  | missing _ => exact .inl ⟨_, rfl⟩
  | found _ _ => exact .inl ⟨_, rfl⟩
  | inserted _ _ hs => exact .inr (.inl ⟨_, by rw [Collection.find_insert hs, if_pos rfl]⟩)
  | refused hfind => exact .inr (.inr ⟨hfind, rfl⟩)
  | replaced _ _ hfind hs =>
    exact .inr (.inl ⟨_, by rw [Collection.find_replace hfind hs, if_pos rfl]⟩)

/-- What it knows after its own segment. -/
theorem CacheUpdate.Knows.of_updates {u' : CacheUpdate} (htruthy : dto.result.truthy = true)
    (h : Resources.Updates c dto phase c' (.suspended u')) : u'.Knows c' := by
  cases h with
  | missing hfind =>
    refine ⟨⟨htruthy, ?_⟩, ?_⟩
    · rintro resource ⟨⟩
      exact ⟨rfl, rfl⟩
    · rintro resource i ⟨⟩ ⟨⟩
  | found d hfind =>
    refine ⟨⟨htruthy, ?_⟩, ?_⟩
    · rintro resource ⟨⟩
      exact ⟨rfl, rfl⟩
    · rintro resource i ⟨⟩ ⟨⟩
      exact ⟨d, hfind, rfl⟩

end Segments

/-! ### The machine -/

/-- The collection, and the calls whose promise was rejected. -/
structure UpdatesStore where
  resources : Resources
  rejected : List SubqueryDto

/-- The call is one whose promise was rejected. -/
def CacheUpdate.rejections (u : CacheUpdate) : Outcome CacheUpdate → List SubqueryDto
  | .rejected => [u.dto]
  | _ => []

/-- One segment of `updateCache`, whose `findOne` or `save` is answered. -/
def updatesReact (s : UpdatesStore) (u : CacheUpdate) (_ : Unit) :
    Option (UpdatesStore × List CacheUpdate) :=
  let (resources, out) := s.resources.update u
  some (⟨resources, s.rejected ++ u.rejections out⟩, out.tasks id)

/-- The calls of `updateCache`, in any order. -/
def concurrentUpdates : Machine UpdatesStore CacheUpdate Unit Empty :=
  ⟨updatesReact, fun _ e => nomatch e⟩

/-- The calls have been made. -/
def called (c : Resources) (calls : List SubqueryDto) : Config UpdatesStore CacheUpdate :=
  ⟨⟨c, []⟩, calls.flatMap fun dto => (updateCache dto).tasks id⟩

/-- All calls have succeeded, every path has one document at most, and a read returns the
result of one of the calls for its path, or what it returned before if there was none. -/
structure UpdatesSafe (c : Resources) (calls : List SubqueryDto) (s : UpdatesStore) : Prop where
  completed : s.rejected = []
  unique : ∀ path, (s.resources.docs.map Document.key).count path ≤ 1
  read : ∀ dto, (∃ call ∈ calls, call.path = dto.path ∧
      (s.resources.readCacheAsync dto).result = call.result) ∨
    (∀ call ∈ calls, call.path ≠ dto.path) ∧
      s.resources.readCacheAsync dto = c.readCacheAsync dto

/-- A call finds no document while another one has found none either, and has not inserted
its own yet. -/
def Overlaps (s : Config UpdatesStore CacheUpdate) : Act Unit Empty → Prop
  | .run i _ => ∃ u, s.pool[i]? = some u ∧ u.phase = .findOne ∧
      s.store.resources.find u.dto.path = none ∧
      ∃ v ∈ s.pool, v.insertsAt u.dto.path = true
  | .env _ => False

/-! ### What holds in every run -/

/-- The path has the result of one of the calls. -/
def HoldsResult (calls : List SubqueryDto) (c : Resources) (path : String) : Prop :=
  ∃ call ∈ calls, call.path = path ∧ ∃ i, c.find path = some ⟨i, path, call.result⟩

/-- The path is as before, and none of the calls for it is over. -/
def Untouched (c : Resources) (calls : List SubqueryDto) (s : Config UpdatesStore CacheUpdate)
    (path : String) : Prop :=
  s.store.resources.find path = c.find path ∧
    ∀ call ∈ calls, call.path = path → ∃ u ∈ s.pool, u.dto = call

/-- What holds in every run of the calls. -/
structure UpdatesInv (c : Resources) (calls : List SubqueryDto)
    (s : Config UpdatesStore CacheUpdate) : Prop where
  knows : ∀ u ∈ s.pool, u.Knows s.store.resources
  called : ∀ u ∈ s.pool, u.dto ∈ calls
  kept : ∀ path, s.store.resources.find path = none → c.find path = none
  missed : ∀ u ∈ s.pool, u.inserts = true → c.find u.dto.path = none
  answered : ∀ path, HoldsResult calls s.store.resources path ∨ Untouched c calls s path

section Runs

variable {c : Resources} {calls : List SubqueryDto} {s s' : Config UpdatesStore CacheUpdate}
  {a : Act Unit Empty} {tr : List (Config UpdatesStore CacheUpdate × Act Unit Empty)}

/-- **What one step can do**, if the activations know what they should. -/
theorem updates_step_cases (hknows : ∀ u ∈ s.pool, u.Knows s.store.resources)
    (hs : concurrentUpdates.step s a = some s') :
    ∃ i u rest out, a = .run i () ∧ concurrentUpdates.Runs s i () s' u rest (out.tasks id) ∧
      Resources.Updates s.store.resources u.dto u.phase s'.store.resources out ∧
      s'.store.rejected = s.store.rejected ++ u.rejections out := by
  rcases Machine.step_cases hs with ⟨i, ⟨⟩, u, rest, ts, rfl, hr⟩ | ⟨e, -⟩
  · obtain ⟨hstore, rfl⟩ := Prod.mk.inj (Option.some.inj hr.react)
    refine ⟨i, u, rest, _, rfl, hr, ?_, by rw [← hstore]⟩
    rw [← hstore]
    exact Resources.updates_of_update (hknows u hr.mem) rfl
  · exact isEmptyElim e

theorem pool_called (c : Resources) (h : ∀ call ∈ calls, call.result.truthy = true) :
    (called c calls).pool = calls.map fun call => ⟨call, .findOne⟩ := by
  show calls.flatMap (fun dto => (updateCache dto).tasks id) = _
  induction calls with
  | nil => rfl
  | cons call calls ih =>
    have hcall : updateCache call = .suspended ⟨call, .findOne⟩ :=
      if_pos (h call List.mem_cons_self)
    rw [List.flatMap_cons, hcall, ih fun call' hcall' => h call' (List.mem_cons_of_mem _ hcall')]
    rfl

theorem updatesInv_called (h : ∀ call ∈ calls, call.result.truthy = true) :
    UpdatesInv c calls (called c calls) := by
  have hmem : ∀ u ∈ (called c calls).pool, ∃ call ∈ calls, u = ⟨call, .findOne⟩ := by
    intro u hu
    rw [pool_called c h] at hu
    obtain ⟨call, hcall, rfl⟩ := List.mem_map.mp hu
    exact ⟨call, hcall, rfl⟩
  refine ⟨?_, ?_, fun _ hnone => hnone, ?_, ?_⟩
  · intro u hu
    obtain ⟨call, hcall, rfl⟩ := hmem u hu
    exact ⟨⟨h call hcall, nofun⟩, nofun⟩
  · intro u hu
    obtain ⟨call, hcall, rfl⟩ := hmem u hu
    exact hcall
  · intro u hu hinserts
    obtain ⟨call, -, rfl⟩ := hmem u hu
    cases hinserts
  · intro path
    refine .inr ⟨rfl, fun call hcall _ => ⟨⟨call, .findOne⟩, ?_, rfl⟩⟩
    rw [pool_called c h]
    exact List.mem_map_of_mem hcall

/-- A path that has the result of a call keeps one. -/
theorem HoldsResult.frame {r r' : Resources} {dto : SubqueryDto} {phase : UpdatePhase}
    {out : Outcome CacheUpdate} {path : String} (h : HoldsResult calls r path) (hdto : dto ∈ calls)
    (hup : Resources.Updates r dto phase r' out) : HoldsResult calls r' path := by
  obtain ⟨call, hcall, hpath, i, hfind⟩ := h
  rcases Resources.find_of_updates hup path with heq | ⟨hown, j, hnew, -⟩
  · exact ⟨call, hcall, hpath, i, heq.trans hfind⟩
  · exact ⟨dto, hdto, hown.symm, j, hnew⟩

/-- **One step keeps the invariant.** -/
theorem updatesInv_step (hI : UpdatesInv c calls s) (hs : concurrentUpdates.step s a = some s') :
    UpdatesInv c calls s' := by
  obtain ⟨i, u, rest, out, -, hr, hup, -⟩ := updates_step_cases hI.knows hs
  have hu := hI.knows u hr.mem
  have hsuspended : ∀ {v}, v ∈ out.tasks id → out = .suspended v := by
    intro v hv
    exact Outcome.forall_tasks (P := fun v => out = .suspended v) (fun _ h => h) v hv
  refine ⟨?_, ?_, ?_, ?_, ?_⟩
  · intro v hv
    rcases hr.mem_pool'.mp hv with hv | hv
    · exact (hI.knows v (hr.mem_of_rest hv)).frame hup
    · obtain rfl := hsuspended hv
      exact .of_updates hu.ok.1 hup
  · intro v hv
    rcases hr.mem_pool'.mp hv with hv | hv
    · exact hI.called v (hr.mem_of_rest hv)
    · obtain rfl := hsuspended hv
      rw [(Resources.suspended_of_updates hup).2.2.1]
      exact hI.called u hr.mem
  · intro path hpath
    exact hI.kept path (Resources.find_eq_none_of_updates hup hpath)
  · intro v hv hinserts
    rcases hr.mem_pool'.mp hv with hv | hv
    · exact hI.missed v (hr.mem_of_rest hv) hinserts
    · obtain rfl := hsuspended hv
      obtain ⟨-, -, hdto, hmissing⟩ := Resources.suspended_of_updates hup
      rw [hdto]
      exact hI.kept _ (hmissing.mp hinserts)
  · intro path
    rcases hI.answered path with hanswered | ⟨hfind, hpool⟩
    · exact .inl (hanswered.frame (hI.called u hr.mem) hup)
    by_cases hpath : u.dto.path = path
    · subst hpath
      rcases Resources.over_of_updates hup with ⟨u', rfl⟩ | ⟨i, hnew⟩ | ⟨hne, hinserts⟩
      · obtain ⟨-, hstore, hdto, -⟩ := Resources.suspended_of_updates hup
        refine .inr ⟨by rw [hstore, hfind], fun call hcall hown => ?_⟩
        obtain ⟨w, hw, rfl⟩ := hpool call hcall hown
        rcases List.mem_cons.mp (hr.pool.mem_iff.mp hw) with rfl | hw
        · exact ⟨u', hr.mem_pool'.mpr (.inr List.mem_cons_self), hdto⟩
        · exact ⟨w, hr.mem_pool'.mpr (.inl hw), rfl⟩
      · exact .inl ⟨u.dto, hI.called u hr.mem, rfl, i, hnew⟩
      · -- The document that was faster is not one from before.
        rw [hfind] at hne
        exact absurd (hI.missed u hr.mem hinserts) hne
    · rcases Resources.find_of_updates hup path with heq | ⟨hown, -⟩
      · refine .inr ⟨heq.trans hfind, fun call hcall hown => ?_⟩
        obtain ⟨w, hw, rfl⟩ := hpool call hcall hown
        rcases List.mem_cons.mp (hr.pool.mem_iff.mp hw) with rfl | hw
        · exact absurd hown hpath
        · exact ⟨w, hr.mem_pool'.mpr (.inl hw), rfl⟩
      · exact absurd hown.symm hpath

/-- **The invariant holds in every run.** -/
theorem updatesInv_of_run (h : ∀ call ∈ calls, call.result.truthy = true)
    (hrun : Run concurrentUpdates.step (called c calls) tr s) : UpdatesInv c calls s :=
  hrun.invariant (updatesInv_called h) updatesInv_step

/-! ### The machine of all the handlers -/

/-- The documents say what the collection keyed by path does. -/
structure Represents (r : Resources) (cache : ResourceCollection) : Prop where
  docs : ∀ path, cache.docs.lookup path = (r.find path).map fun d => ⟨d.id, d.value⟩
  nextObjectId : cache.nextObjectId = r.nextId

section Represents

variable {r r' : Resources} {cache : ResourceCollection}

theorem Represents.findOne_eq (h : Represents r cache) (path : String) :
    cache.findOne path = r.findOne path := by
  unfold ResourceCollection.findOne Resources.findOne
  rw [h.docs, Option.map_map]
  cases hfind : r.find path with
  | none => rfl
  | some d =>
    rw [Option.map_some, Option.map_some, (Collection.find_eq_some_iff.mp hfind).2]
    rfl

/-- A read returns the same from both. -/
theorem Represents.readCacheAsync_eq (h : Represents r cache) (dto : SubqueryDto) :
    readCacheAsync cache dto = r.readCacheAsync dto := by
  have hfind := h.findOne_eq dto.path
  unfold readCacheAsync Resources.readCacheAsync ResourceCollection.cached
  generalize cache.findOne dto.path = found at hfind ⊢
  subst hfind
  rfl

/-- Both get a document for the path. -/
theorem Represents.put (h : Represents r cache) {path : String} {i : ℕ} {result : Json}
    (hfind : ∀ path', r'.find path' =
      if path' = path then some ⟨i, path, result⟩ else r.find path') :
    Represents r' ⟨cache.docs.insert path ⟨i, result⟩, r'.nextId⟩ := by
  refine ⟨fun path' => ?_, rfl⟩
  rw [hfind]
  split_ifs with hpath
  · subst hpath
    exact AList.lookup_insert _
  · exact (AList.lookup_insert_ne hpath).trans (h.docs path')

/-- **A segment of `updateCache` does the same to both.** -/
theorem Represents.step (h : Represents r cache) {u : CacheUpdate} (hu : u.Knows r)
    {out : Outcome CacheUpdate} (hs : r.update u = (r', out)) :
    ∃ cache', u.step cache .proceed = some (cache', out) ∧ Represents r' cache' := by
  obtain ⟨dto, phase⟩ := u
  have hlookup := h.docs dto.path
  cases phase with
  | findOne =>
    obtain ⟨rfl, rfl⟩ := Prod.mk.inj hs
    refine ⟨cache, ?_, h⟩
    rw [← h.findOne_eq]
    rfl
  | save resource =>
    have hup : Resources.Updates r dto (.save resource) r' out := Resources.updates_of_update hu hs
    cases hup with
    | inserted _ hfind hins =>
      rw [hfind, Option.map_none] at hlookup
      have hput := h.put (Collection.find_insert hins)
      rw [Collection.nextId_insert hins, ← h.nextObjectId] at hput
      refine ⟨_, ?_, hput⟩
      simp only [CacheUpdate.step, ResourceCollection.save, hlookup]
    | refused hfind =>
      obtain ⟨d, hd⟩ := Option.ne_none_iff_exists'.mp hfind
      rw [hd, Option.map_some] at hlookup
      refine ⟨cache, ?_, h⟩
      simp only [CacheUpdate.step, ResourceCollection.save, hlookup]
    | replaced d _ hfind hrep =>
      rw [hfind, Option.map_some] at hlookup
      have hput := h.put (Collection.find_replace hfind hrep)
      rw [Collection.nextId_replace hfind hrep, ← h.nextObjectId] at hput
      refine ⟨_, ?_, hput⟩
      simp only [CacheUpdate.step, ResourceCollection.save, hlookup, if_true]

end Represents

/-- **The calls are among the handlers**: whatever their order, the machine of result handling
does the same to the cache. -/
theorem reachable_of_run (h : ∀ call ∈ calls, call.result.truthy = true)
    (hrun : Run concurrentUpdates.step (called c calls) tr s) (db : Database)
    {cache : ResourceCollection} (hcache : Represents c cache) :
    ∃ cache', Represents s.store.resources cache' ∧
      Reachable resultHandling.step ⟨⟨db, cache⟩, (called c calls).pool.map .updater⟩
        ⟨⟨db, cache'⟩, s.pool.map .updater⟩ := by
  induction hrun with
  | nil => exact ⟨cache, hcache, .refl _⟩
  | @snoc tr s s' a hrun hs ih =>
    obtain ⟨cache₁, hcache₁, hreach⟩ := ih
    cases a with
    | env e => exact isEmptyElim e
    | run i ch =>
      obtain ⟨u, hi, hs⟩ := Option.bind_eq_some_iff.mp hs
      obtain ⟨r, hreact, rfl⟩ := Option.map_eq_some_iff.mp hs
      obtain rfl := Option.some.inj hreact
      have hu := (updatesInv_of_run h hrun).knows u (List.mem_of_getElem? hi)
      obtain ⟨cache₂, hstep, hcache₂⟩ := hcache₁.step hu rfl
      refine ⟨cache₂, hcache₂, hreach.tail (a := .run i .proceed) ?_⟩
      have hi' : (s.pool.map ResultTask.updater)[i]? = some (.updater u) := by
        rw [List.getElem?_map, hi, Option.map_some]
      have htasks : ∀ out : Outcome CacheUpdate,
          out.tasks ResultTask.updater = (out.tasks id).map .updater := by
        rintro (u | - | -) <;> rfl
      rw [Machine.step_run hi' (resultReact_updater hstep), List.map_append, List.eraseIdx_map,
        ← htasks]

/-! ### When the calls are safe -/

/-- How many activations are about to insert a document for the path. -/
def inserters (s : Config UpdatesStore CacheUpdate) (path : String) : ℕ :=
  s.pool.countP (CacheUpdate.insertsAt path)

/-- No call was refused, and none will be: for a path without a document one activation at
most is about to insert one, and for a path with a document none is. -/
structure Unrefused (s : Config UpdatesStore CacheUpdate) : Prop where
  completed : s.store.rejected = []
  inserters : ∀ path, inserters s path ≤ if s.store.resources.find path = none then 1 else 0

/-- The inserters before and after a step. -/
theorem inserters_of_runs {i : ℕ} {u : CacheUpdate} {rest ts : List CacheUpdate}
    (hr : concurrentUpdates.Runs s i () s' u rest ts) (path : String) :
    inserters s path + ts.countP (CacheUpdate.insertsAt path)
      = inserters s' path + if u.insertsAt path then 1 else 0 := by
  unfold inserters
  rw [hr.countP_pool, hr.countP_pool']
  omega

theorem overlaps_iff {i : ℕ} {u : CacheUpdate} (hget : s.pool[i]? = some u) :
    Overlaps s (.run i ()) ↔ u.phase = .findOne ∧ s.store.resources.find u.dto.path = none ∧
      0 < inserters s u.dto.path := by
  unfold inserters
  rw [List.countP_pos_iff]
  constructor
  · rintro ⟨v, hv, hphase, hfind, hinserts⟩
    obtain rfl := Option.some.inj (hget.symm.trans hv)
    exact ⟨hphase, hfind, hinserts⟩
  · rintro ⟨hphase, hfind, hinserts⟩
    exact ⟨u, hget, hphase, hfind, hinserts⟩

/-- A step that leaves room for as many inserters as there are. -/
theorem unrefused_iff_of_room (hrejected : s'.store.rejected = s.store.rejected)
    (hroom : ∀ path, inserters s' path ≤ (if s'.store.resources.find path = none then 1 else 0) ↔
      inserters s path ≤ if s.store.resources.find path = none then 1 else 0) :
    Unrefused s' ↔ Unrefused s := by
  constructor
  · rintro ⟨hcompleted, hinserters⟩
    exact ⟨hrejected ▸ hcompleted, fun path => (hroom path).mp (hinserters path)⟩
  · rintro ⟨hcompleted, hinserters⟩
    exact ⟨hrejected.trans hcompleted, fun path => (hroom path).mpr (hinserters path)⟩

/-- A step that leads to one more inserter, for a path without a document. -/
theorem unrefused_iff_of_more {own : String} (hrejected : s'.store.rejected = s.store.rejected)
    (hsame : s'.store.resources = s.store.resources) (hfind : s.store.resources.find own = none)
    (hmore : ∀ path, inserters s' path = inserters s path + if own = path then 1 else 0) :
    (Unrefused s' → Unrefused s) ∧ (Unrefused s → (Unrefused s' ↔ ¬ 0 < inserters s own)) := by
  have hown := hmore own
  rw [if_pos rfl] at hown
  constructor
  · rintro ⟨hcompleted, hinserters⟩
    refine ⟨hrejected ▸ hcompleted, fun path => ?_⟩
    have hroom := hinserters path
    have hcount := hmore path
    rw [hsame] at hroom
    omega
  · rintro ⟨hcompleted, hinserters⟩
    constructor
    · rintro ⟨-, hinserters'⟩ hpos
      have hroom := hinserters' own
      rw [hsame, if_pos hfind] at hroom
      omega
    · intro hzero
      refine ⟨hrejected.trans hcompleted, fun path => ?_⟩
      rw [hsame]
      by_cases hpath : own = path
      · subst hpath
        rw [if_pos hfind]
        omega
      · have hroom := hinserters path
        have hcount := hmore path
        rw [if_neg hpath] at hcount
        omega

/-- A segment that is not refused, and does not miss a document, leaves as much room as there
are inserters: an insertion takes away both. -/
theorem unrefused_iff_of_updates {i : ℕ} {dto : SubqueryDto} {phase : UpdatePhase}
    {rest : List CacheUpdate} {out : Outcome CacheUpdate}
    (hr : concurrentUpdates.Runs s i () s' ⟨dto, phase⟩ rest (out.tasks id))
    (hup : Resources.Updates s.store.resources dto phase s'.store.resources out)
    (hrejected : s'.store.rejected = s.store.rejected) (hout : out ≠ .rejected)
    (hfound : phase = .findOne → s.store.resources.find dto.path ≠ none) :
    Unrefused s' ↔ Unrefused s := by
  have hcount := inserters_of_runs hr
  refine unrefused_iff_of_room hrejected fun path => ?_
  generalize s'.store.resources = r' at hup
  cases hup with
  | missing hfind => exact absurd hfind (hfound rfl)
  | refused hfind => exact absurd rfl hout
  | found d hfind =>
    simp only [Outcome.tasks_suspended, id_eq, List.countP_singleton, CacheUpdate.insertsAt_findOne,
      CacheUpdate.insertsAt_found, Bool.false_eq_true, if_false, Nat.add_zero] at hcount
    rw [hcount path]
  | inserted _ hfind hs =>
    simp only [Outcome.tasks_resolved, List.countP_nil, CacheUpdate.insertsAt_new,
      Nat.add_zero] at hcount
    have hless := hcount path
    rw [Collection.find_insert hs]
    by_cases hpath : dto.path = path
    · subst hpath
      rw [if_pos rfl] at hless
      rw [if_pos rfl, if_neg nofun, if_pos hfind]
      omega
    · rw [if_neg hpath] at hless
      rw [if_neg (Ne.symm hpath), hless, Nat.add_zero]
  | replaced d _ hfind hs =>
    simp only [Outcome.tasks_resolved, List.countP_nil, CacheUpdate.insertsAt_found,
      Bool.false_eq_true, if_false, Nat.add_zero] at hcount
    rw [Collection.find_replace hfind hs, hcount path]
    by_cases hpath : path = dto.path
    · subst hpath
      rw [if_pos rfl, hfind, if_neg nofun, if_neg nofun]
    · rw [if_neg hpath]

/-- **What one step does to the inserters.**  It never makes up for a refusal, and it leads to
one just in case it overlaps. -/
theorem unrefused_step (hknows : ∀ u ∈ s.pool, u.Knows s.store.resources)
    (hs : concurrentUpdates.step s a = some s') :
    (Unrefused s' → Unrefused s) ∧ (Unrefused s → (Unrefused s' ↔ ¬ Overlaps s a)) := by
  obtain ⟨i, ⟨dto, phase⟩, rest, out, rfl, hr, hup, hrejected⟩ := updates_step_cases hknows hs
  have hup : Resources.Updates s.store.resources dto phase s'.store.resources out := hup
  have hcount := inserters_of_runs hr
  have hoverlaps : Overlaps s (.run i ()) ↔ phase = .findOne ∧
      s.store.resources.find dto.path = none ∧ 0 < inserters s dto.path := overlaps_iff hr.get
  have hsame : out ≠ .rejected → s'.store.rejected = s.store.rejected := by
    intro hout
    rw [hrejected]
    cases out with
    | rejected => exact absurd rfl hout
    | _ => exact List.append_nil _
  have hiff := unrefused_iff_of_updates hr hup
  -- Such a step does not overlap.
  have hkeeps : (Unrefused s' ↔ Unrefused s) → ¬ Overlaps s (.run i ()) →
      (Unrefused s' → Unrefused s) ∧
        (Unrefused s → (Unrefused s' ↔ ¬ Overlaps s (.run i ()))) :=
    fun hiff hno => ⟨hiff.mp, fun h => iff_of_true (hiff.mpr h) hno⟩
  generalize hstore : s'.store.resources = r' at hup
  cases hup with
  | missing hfind =>
    simp only [Outcome.tasks_suspended, id_eq, List.countP_singleton, CacheUpdate.insertsAt_findOne,
      CacheUpdate.insertsAt_new, Bool.false_eq_true, if_false, Nat.add_zero] at hcount
    rw [hoverlaps, and_iff_right rfl, and_iff_right hfind]
    exact unrefused_iff_of_more (hsame nofun) hstore hfind fun path => (hcount path).symm
  | refused hfind =>
    simp only [Outcome.tasks_rejected, List.countP_nil, CacheUpdate.insertsAt_new,
      Nat.add_zero] at hcount
    constructor
    · rintro ⟨hcompleted, -⟩
      rw [hrejected] at hcompleted
      exact absurd (List.append_eq_nil_iff.mp hcompleted).2 nofun
    · rintro ⟨-, hinserters⟩
      -- There is no room for the one that is refused.
      have hown := hcount dto.path
      have hroom := hinserters dto.path
      rw [if_pos rfl] at hown
      rw [if_neg hfind] at hroom
      omega
  | found d hfind =>
    have hne : s.store.resources.find dto.path ≠ none := by
      rw [hfind]
      exact nofun
    refine hkeeps (hiff (hsame nofun) nofun fun _ => hne) ?_
    rw [hoverlaps]
    rintro ⟨-, hnone, -⟩
    exact hne hnone
  | inserted _ _ _ =>
    refine hkeeps (hiff (hsame nofun) nofun nofun) ?_
    rw [hoverlaps]
    exact nofun
  | replaced _ _ _ _ =>
    refine hkeeps (hiff (hsame nofun) nofun nofun) ?_
    rw [hoverlaps]
    exact nofun

theorem unrefused_called (h : ∀ call ∈ calls, call.result.truthy = true) :
    Unrefused (called c calls) := by
  refine ⟨rfl, fun path => ?_⟩
  have hzero : inserters (called c calls) path = 0 := by
    refine countP_eq_zero_of_forall fun u hu => ?_
    rw [pool_called c h] at hu
    obtain ⟨call, -, rfl⟩ := List.mem_map.mp hu
    exact CacheUpdate.insertsAt_findOne call path
  rw [hzero]
  exact Nat.zero_le _

/-- What is read from a path that has the result of a call. -/
theorem Resources.readCacheAsync_of_find {r : Resources} {dto : SubqueryDto} {i : ℕ} {result : Json}
    (hfind : r.find dto.path = some ⟨i, dto.path, result⟩) (htruthy : result.truthy = true) :
    (r.readCacheAsync dto).result = result := by
  have hfound : r.findOne dto.path = some ⟨some i, dto.path, result⟩ := by
    rw [Resources.findOne, hfind]
    rfl
  simp only [Resources.readCacheAsync, hfound]
  exact if_pos htruthy

/-- **Once all calls are over** they are safe just in case none was refused. -/
theorem safe_iff_unrefused (h : ∀ call ∈ calls, call.result.truthy = true)
    (hI : UpdatesInv c calls s) (hdone : s.pool = []) :
    UpdatesSafe c calls s.store ↔ Unrefused s := by
  constructor
  · rintro ⟨hcompleted, -, -⟩
    refine ⟨hcompleted, fun path => ?_⟩
    rw [inserters, hdone]
    exact Nat.zero_le _
  · rintro ⟨hcompleted, -⟩
    refine ⟨hcompleted, s.store.resources.count_le_one, fun dto => ?_⟩
    rcases hI.answered dto.path with ⟨call, hcall, hpath, i, hfind⟩ | ⟨hfind, hpool⟩
    · exact .inl ⟨call, hcall, hpath, Resources.readCacheAsync_of_find hfind (h call hcall)⟩
    · refine .inr ⟨fun call hcall hpath => ?_, ?_⟩
      · obtain ⟨u, hu, -⟩ := hpool call hcall hpath
        rw [hdone] at hu
        cases hu
      · unfold Resources.readCacheAsync Resources.findOne
        rw [hfind]

/-- **When the calls of a run are safe**: just in case none of them overlaps. -/
theorem safe_iff_of_run (h : ∀ call ∈ calls, call.result.truthy = true)
    (hrun : Run concurrentUpdates.step (called c calls) tr s) (hdone : s.pool = []) :
    UpdatesSafe c calls s.store ↔ ∀ p ∈ tr, ¬ Overlaps p.1 p.2 := by
  rw [safe_iff_unrefused h (updatesInv_of_run h hrun) hdone]
  refine hrun.last_iff (A := fun _ _ => True) (C := fun s a => ¬ Overlaps s a)
    (I := UpdatesInv c calls) (fun _ _ => trivial) (updatesInv_called h) (unrefused_called h)
    ?_ ?_ ?_
  · intro s a s' hI _ hs
    exact updatesInv_step hI hs
  · intro s a s' hI hs
    exact (unrefused_step hI.knows hs).1
  · intro s a s' hI hP _ hs
    exact (unrefused_step hI.knows hs).2 hP

/-! ### All orders at once -/

/-- How much an activation has left to do. -/
def CacheUpdate.segments (u : CacheUpdate) : ℕ :=
  match u.phase with
  | .findOne => 2
  | .save _ => 1

theorem segments_of_react {s s' : UpdatesStore} {u : CacheUpdate} {ch : Unit}
    {ts : List CacheUpdate} (h : concurrentUpdates.react s u ch = some (s', ts)) :
    work CacheUpdate.segments ts < u.segments := by
  obtain ⟨-, rfl⟩ := Prod.mk.inj (Option.some.inj h)
  obtain ⟨dto, phase⟩ := u
  cases phase with
  | findOne => exact Nat.one_lt_two
  | save resource =>
    cases hsave : s.resources.save resource with
    | none =>
      simp only [hsave]
      exact Nat.zero_lt_one
    | some r =>
      simp only [hsave]
      exact Nat.zero_lt_one

/-- No run has more than the two segments of every call. -/
theorem length_le_of_run (h : ∀ call ∈ calls, call.result.truthy = true)
    (hrun : Run concurrentUpdates.step (called c calls) tr s) : tr.length ≤ 2 * calls.length := by
  have hlen := Machine.length_le_of_run segments_of_react hrun
  have hwork : work CacheUpdate.segments (called c calls).pool = 2 * calls.length := by
    rw [pool_called c h]
    clear h hrun hlen
    induction calls with
    | nil => rfl
    | cons call calls ih =>
      show 2 + work _ (calls.map _) = 2 * (calls.length + 1)
      rw [ih, Nat.mul_succ, Nat.add_comm]
  omega

/-- **All calls come to their end**: whatever has happened, the others can go on. -/
theorem exists_all_over (s : Config UpdatesStore CacheUpdate) :
    ∃ tr s', Run concurrentUpdates.step s tr s' ∧ s'.pool = [] :=
  Machine.exists_drained segments_of_react (fun _ _ => ⟨(), _, rfl⟩) s

/-- No path without a document has more than one call. -/
def UncachedOnce (c : Resources) (calls : List SubqueryDto) : Prop :=
  ∀ path, c.findOne path = none → (calls.map SubqueryDto.path).count path ≤ 1

/-- There are never more activations for a path than calls. -/
theorem countP_pool_le (h : ∀ call ∈ calls, call.result.truthy = true)
    (hrun : Run concurrentUpdates.step (called c calls) tr s) (path : String) :
    (s.pool.countP fun u => u.dto.path = path) ≤ (calls.map SubqueryDto.path).count path := by
  induction hrun with
  | nil =>
    rw [pool_called c h, List.count, List.countP_map, List.countP_map]
    exact le_of_eq (List.countP_congr fun call _ => by simp)
  | @snoc tr s s' a hrun hs ih =>
    obtain ⟨i, u, rest, out, -, hr, hup, -⟩ :=
      updates_step_cases (updatesInv_of_run h hrun).knows hs
    have htasks : ((out.tasks id).countP fun u => u.dto.path = path)
        ≤ if u.dto.path = path then 1 else 0 := by
      cases out with
      | suspended v =>
        obtain ⟨-, -, hdto, -⟩ := Resources.suspended_of_updates hup
        rw [Outcome.tasks_suspended, List.countP_singleton, id_eq, hdto]
        simp
      | resolved => exact Nat.zero_le _
      | rejected => exact Nat.zero_le _
    rw [hr.countP_pool] at ih
    rw [hr.countP_pool']
    simp only [decide_eq_true_eq] at ih
    omega

/-- If no path without a document has more than one call, then none overlaps another. -/
theorem not_overlaps_of_uncachedOnce (h : ∀ call ∈ calls, call.result.truthy = true)
    (hrun : Run concurrentUpdates.step (called c calls) tr s) (honce : UncachedOnce c calls)
    (a : Act Unit Empty) : ¬ Overlaps s a := by
  cases a with
  | env e => exact isEmptyElim e
  | run i ch =>
    rintro ⟨u, hget, hphase, hfind, v, hv, hinserts⟩
    have hnone : c.findOne u.dto.path = none := by
      rw [Resources.findOne, (updatesInv_of_run h hrun).kept _ hfind, Option.map_none]
    have hne : u ≠ v := by
      rintro rfl
      simp [CacheUpdate.insertsAt, CacheUpdate.inserts, hphase] at hinserts
    have hpath : v.dto.path = u.dto.path := by
      simp only [CacheUpdate.insertsAt, Bool.and_eq_true, decide_eq_true_eq] at hinserts
      exact hinserts.1
    -- The two are different activations for one path.
    have htwo : [u, v].Subperm s.pool := by
      refine List.subperm_of_subset (by simpa using hne) ?_
      intro w hw
      rcases List.mem_pair.mp hw with rfl | rfl
      · exact List.mem_of_getElem? hget
      · exact hv
    have hcount := htwo.countP_le fun w => w.dto.path = u.dto.path
    have hle := countP_pool_le h hrun u.dto.path
    have hone := honce u.dto.path hnone
    simp [hpath] at hcount
    omega

/-- **Two calls for a path without a document can overlap.** -/
theorem exists_overlap (h : ∀ call ∈ calls, call.result.truthy = true) {path : String}
    (hnone : c.findOne path = none) (hmany : 1 < (calls.map SubqueryDto.path).count path) :
    ∃ tr s, Run concurrentUpdates.step (called c calls) tr s ∧ ∃ p ∈ tr, Overlaps p.1 p.2 := by
  have hfind : c.find path = none := Option.map_eq_none_iff.mp hnone
  let looks : CacheUpdate → Bool := fun u => u.dto.path = path ∧ u.phase = .findOne
  have hlooks : (called c calls).pool.countP looks = (calls.map SubqueryDto.path).count path := by
    rw [pool_called c h, List.count, List.countP_map, List.countP_map]
    exact List.countP_congr fun call _ => by simp [looks]
  -- The first one finds no document.
  have hpos : 0 < (called c calls).pool.countP looks := by omega
  obtain ⟨u, hu, hlook⟩ := List.countP_pos_iff.mp hpos
  obtain ⟨i, hi⟩ := List.mem_iff_getElem?.mp hu
  obtain ⟨hpath, hphase⟩ : u.dto.path = path ∧ u.phase = .findOne := of_decide_eq_true hlook
  obtain ⟨s₁, hs₁⟩ : ∃ s₁, concurrentUpdates.step (called c calls) (.run i ()) = some s₁ :=
    ⟨_, Machine.step_run hi rfl⟩
  obtain ⟨j, u', rest, out, hj, hr, hup, -⟩ := updates_step_cases (updatesInv_called h).knows hs₁
  obtain rfl : i = j := by cases hj; rfl
  obtain rfl := Option.some.inj (hi.symm.trans hr.get)
  obtain ⟨v, rfl, hinserts, hstore⟩ : ∃ v, out = .suspended v ∧ v.insertsAt path = true ∧
      s₁.store.resources = c := by
    generalize s₁.store.resources = r at hup
    rw [hphase] at hup
    have hup : Resources.Updates c u.dto .findOne r out := hup
    cases hup with
    | missing _ =>
      refine ⟨_, rfl, ?_, rfl⟩
      rw [CacheUpdate.insertsAt_new]
      exact hpath
    | found d hd =>
      rw [hpath, hfind] at hd
      cases hd
  -- The second one finds none either.
  have hcount := hr.countP_pool looks
  rw [if_pos hlook] at hcount
  have hpos₁ : 0 < rest.countP looks := by omega
  obtain ⟨w, hw, hlook₁⟩ := List.countP_pos_iff.mp hpos₁
  obtain ⟨k, hk⟩ := List.mem_iff_getElem?.mp (hr.mem_pool'.mpr (.inl hw))
  obtain ⟨hpath₁, hphase₁⟩ : w.dto.path = path ∧ w.phase = .findOne := of_decide_eq_true hlook₁
  obtain ⟨s₂, hs₂⟩ : ∃ s₂, concurrentUpdates.step s₁ (.run k ()) = some s₂ :=
    ⟨_, Machine.step_run hk rfl⟩
  refine ⟨_, s₂, (Run.nil.snoc hs₁).snoc hs₂, (s₁, .run k ()), by simp, w, hk, hphase₁, ?_, v,
    ?_, ?_⟩
  · rw [hstore, hpath₁, hfind]
  · exact hr.mem_pool'.mpr (.inr List.mem_cons_self)
  · rw [hpath₁, hinserts]

end Runs

/-- **When concurrent updates are safe.**  For every run of the calls that has come to its
end: just in case none of its steps overlaps.  And for all runs: just in case no path without
a document has more than one call. -/
theorem concurrent_updates_safe_iff (c : Resources) {calls : List SubqueryDto}
    (h : ∀ call ∈ calls, call.result.truthy = true) :
    (∀ tr s, Run concurrentUpdates.step (called c calls) tr s → s.pool = [] →
        (UpdatesSafe c calls s.store ↔ ∀ p ∈ tr, ¬ Overlaps p.1 p.2)) ∧
      ((∀ tr s, Run concurrentUpdates.step (called c calls) tr s → s.pool = [] →
        UpdatesSafe c calls s.store) ↔ UncachedOnce c calls) := by
  refine ⟨fun tr s hrun hdone => safe_iff_of_run h hrun hdone, ?_⟩
  constructor
  · intro hall path hnone
    by_contra hmany
    obtain ⟨tr, s, hrun, p, hp, hoverlaps⟩ := exists_overlap h hnone (Nat.lt_of_not_le hmany)
    -- From there on all calls come to their end.
    obtain ⟨tr', s', hrest, hdone⟩ := exists_all_over s
    have hsafe := hall _ s' (hrun.append hrest) hdone
    have hno := (safe_iff_of_run h (hrun.append hrest) hdone).mp hsafe
    exact hno p (List.mem_append_left _ hp) hoverlaps
  · intro honce tr s hrun hdone
    rw [safe_iff_of_run h hrun hdone]
    rintro ⟨t, a⟩ hp
    obtain ⟨tr₁, -, -, -, hrun₁, -⟩ := hrun.of_mem hp
    exact not_overlaps_of_uncachedOnce h hrun₁ honce a

/-- The results of two queries that have fetched one path. -/
def sharedPathUpdates : List SubqueryDto :=
  [⟨⟨0⟩, "people/1", ⟨2⟩, .structured "\x7b\x7d"⟩, ⟨⟨1⟩, "people/1", ⟨3⟩, .structured "[]"⟩]

/-- The path has a document. -/
def peopleStored : Resources := (Collection.empty.insert "people/1" (.bool true)).getD .empty

theorem concurrent_updates_safe_iff_sharedPath :
    UncachedOnce peopleStored sharedPathUpdates ∧
      ∀ tr s, Run concurrentUpdates.step (called peopleStored sharedPathUpdates) tr s →
        s.pool = [] → UpdatesSafe peopleStored sharedPathUpdates s.store := by
  have honce : UncachedOnce peopleStored sharedPathUpdates := by
    intro path hnone
    have hne : path ≠ "people/1" := by
      rintro rfl
      exact absurd hnone (by decide)
    have hzero : (sharedPathUpdates.map SubqueryDto.path).count path = 0 := by
      rw [List.count_eq_zero]
      simp [sharedPathUpdates, hne]
    omega
  exact ⟨honce, (concurrent_updates_safe_iff peopleStored (by decide)).2.mpr honce⟩

/-- **A refused update.**  Neither of two calls for a path finds a document, so that both
insert one, and the second is refused. -/
theorem second_insert_refused :
    ∃ tr s, Run concurrentUpdates.step (called .empty sharedPathUpdates) tr s ∧ s.pool = [] ∧
      s.store.rejected.map SubqueryDto.id = [⟨1⟩] ∧
      ¬ UpdatesSafe .empty sharedPathUpdates s.store := by
  have hexec : (exec concurrentUpdates.step (called .empty sharedPathUpdates)
      (List.replicate 4 (.run 0 ()))).any (fun s =>
        s.pool = [] ∧ s.store.rejected.map SubqueryDto.id = [⟨1⟩]) = true := by
    decide +kernel
  obtain ⟨tr, s, hrun, -, hp⟩ := exists_run_of_exec _ hexec
  obtain ⟨hdone, hrejected⟩ := of_decide_eq_true hp
  refine ⟨tr, s, hrun, hdone, hrejected, fun hsafe => ?_⟩
  rw [hsafe.completed] at hrejected
  cases hrejected

end SwapiService
