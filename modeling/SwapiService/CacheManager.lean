import Mathlib.Data.List.AList
import SwapiService.Dto

/-!
# The cache manager

The collection `resourceCollection` of MongoDB and the two handlers of
`CacheManagerService`.  The collection has a unique index on `path`, so its
documents are keyed by path here.

## Main definitions

* `ResourceCollection` — the collection, with `findOne` and `save`.
* `readCacheAsync` — the reply to a `CACHE_READ`.
* `updateCache`, `CacheUpdate.step` — the handler of a `RECEIVE` event, and its
  segments: a `findOne`, then a `save`.

## Main results

* `CacheUpdate.fires_of_step` — what one segment can do.
* `CacheUpdate.cached_of_fires` — a segment changes what is cached for at most the
  path of its own event, and then to the event's result.
-/

namespace SwapiService

open TaskPool

/-- `SwapiResourceEntity`.  A new entity has no `_id` yet. -/
structure SwapiResourceEntity where
  objectId : Option ℕ
  path : String
  cachedResult : Json
  deriving DecidableEq, Repr

/-- What a document stores besides its path. -/
structure ResourceDocument where
  objectId : ℕ
  cachedResult : Json
  deriving DecidableEq, Repr

/-- The collection, and the next `_id` MongoDB will give out. -/
structure ResourceCollection where
  docs : AList fun _ : String => ResourceDocument
  nextObjectId : ℕ

namespace ResourceCollection

/-- The collection without a document. -/
def empty : ResourceCollection := ⟨∅, 0⟩

/-- `swapiResourceRepository.findOne({ where: { path } })`. -/
def findOne (c : ResourceCollection) (path : String) : Option SwapiResourceEntity :=
  (c.docs.lookup path).map fun d => ⟨some d.objectId, path, d.cachedResult⟩

/-- `swapiResourceRepository.save`.  An entity without `_id` is inserted, one with
an `_id` replaces its document, or is inserted again if that document has been
removed meanwhile; the unique index refuses a second document for a path. -/
def save (c : ResourceCollection) (e : SwapiResourceEntity) : Option ResourceCollection :=
  match e.objectId, c.docs.lookup e.path with
  | none, none =>
      some ⟨c.docs.insert e.path ⟨c.nextObjectId, e.cachedResult⟩, c.nextObjectId + 1⟩
  -- Another handler has inserted a document for the path since the `findOne`.
  | none, some _ => none
  | some i, none => some { c with docs := c.docs.insert e.path ⟨i, e.cachedResult⟩ }
  | some i, some d =>
      if d.objectId = i then some { c with docs := c.docs.insert e.path ⟨i, e.cachedResult⟩ }
      else none

/-- The document for `path` disappears, by the TTL monitor or by an operator. -/
def remove (c : ResourceCollection) (path : String) : ResourceCollection :=
  { c with docs := c.docs.erase path }

/-- The cached result for `path` as the code reads it:
`resource?.cached_result || null`. -/
def cached (c : ResourceCollection) (path : String) : Json :=
  match c.findOne path with
  | some resource => resource.cachedResult.orNull
  | none => .null

/-- A save that succeeds stores the entity's result under its path and changes no
other document. -/
theorem lookup_save {c c' : ResourceCollection} {e : SwapiResourceEntity}
    (h : c.save e = some c') :
    (∃ i, c'.docs.lookup e.path = some ⟨i, e.cachedResult⟩) ∧
      ∀ path ≠ e.path, c'.docs.lookup path = c.docs.lookup path := by
  have key : ∀ (i n : ℕ), c' = ⟨c.docs.insert e.path ⟨i, e.cachedResult⟩, n⟩ →
      (∃ i, c'.docs.lookup e.path = some ⟨i, e.cachedResult⟩) ∧
        ∀ path ≠ e.path, c'.docs.lookup path = c.docs.lookup path := by
    rintro i n rfl
    exact ⟨⟨i, AList.lookup_insert _⟩, fun path hpath => AList.lookup_insert_ne hpath⟩
  unfold save at h
  split at h
  · exact key _ _ (Option.some.inj h).symm
  · simp at h
  · exact key _ _ (Option.some.inj h).symm
  · split_ifs at h
    exact key _ _ (Option.some.inj h).symm

/-- What is cached after a save that succeeds. -/
theorem cached_save {c c' : ResourceCollection} {e : SwapiResourceEntity}
    (h : c.save e = some c') (path : String) :
    c'.cached path = if path = e.path then e.cachedResult.orNull else c.cached path := by
  obtain ⟨⟨i, hown⟩, hother⟩ := lookup_save h
  by_cases hpath : path = e.path
  · -- The path that was saved; any other is cached as before.
    subst hpath
    rw [if_pos rfl]
    simp only [cached, findOne, hown, Option.map_some]
  · rw [if_neg hpath]
    simp only [cached, findOne, hother path hpath]

/-- What is cached is truthy or `null`. -/
theorem cached_eq_null {c : ResourceCollection} {path : String}
    (h : ¬ (c.cached path).truthy = true) : c.cached path = .null := by
  unfold cached at h ⊢
  split
  · next resource hfind =>
    rw [hfind] at h
    exact Json.orNull_eq_null_of_not_truthy h
  · rfl

end ResourceCollection

/-! ### The handlers -/

/-- `readCacheAsync`: the DTO comes back with the cached result of its path. -/
def readCacheAsync (c : ResourceCollection) (dto : SubqueryDto) : SubqueryDto :=
  { dto with result := c.cached dto.path }

/-- Where an activation of `updateCache` waits. -/
inductive UpdatePhase
  | findOne
  | save (resource : SwapiResourceEntity)
  deriving DecidableEq, Repr

/-- An activation of `updateCache`. -/
structure CacheUpdate where
  dto : SubqueryDto
  phase : UpdatePhase
  deriving DecidableEq, Repr

/-- `updateCache` up to its first `await`; it returns at once when the event
carries no result. -/
def updateCache (dto : SubqueryDto) : Outcome CacheUpdate :=
  if dto.result.truthy then .suspended ⟨dto, .findOne⟩ else .resolved

/-- The entity `updateCache` saves: the one it found, or a new one, with the
event's path and result. -/
def updatedResource (found : Option SwapiResourceEntity) (dto : SubqueryDto) :
    SwapiResourceEntity :=
  { objectId := found.bind SwapiResourceEntity.objectId
    path := dto.path
    cachedResult := dto.result }

/-- One segment of `updateCache`. -/
def CacheUpdate.step (c : ResourceCollection) (u : CacheUpdate) :
    Choice → Option (ResourceCollection × Outcome CacheUpdate)
  | .fail => some (c, .rejected)
  | .proceed =>
      match u.phase with
      | .findOne =>
          some (c, .suspended ⟨u.dto, .save (updatedResource (c.findOne u.dto.path) u.dto)⟩)
      | .save resource =>
          match c.save resource with
          | some c' => some (c', .resolved)
          | none => some (c, .rejected)
  | _ => none

/-- The segments of `updateCache`, case by case. -/
inductive CacheUpdate.Fires (c : ResourceCollection) (dto : SubqueryDto) :
    UpdatePhase → Choice → ResourceCollection → Outcome CacheUpdate → Prop
  | rejects (phase : UpdatePhase) : Fires c dto phase .fail c .rejected
  | found : Fires c dto .findOne .proceed c
      (.suspended ⟨dto, .save (updatedResource (c.findOne dto.path) dto)⟩)
  | saved (resource : SwapiResourceEntity) (c' : ResourceCollection)
      (h : c.save resource = some c') : Fires c dto (.save resource) .proceed c' .resolved
  | duplicate (resource : SwapiResourceEntity) (h : c.save resource = none) :
      Fires c dto (.save resource) .proceed c .rejected

/-- **What one segment of `updateCache` can do.** -/
theorem CacheUpdate.fires_of_step {c c' : ResourceCollection} {u : CacheUpdate} {ch : Choice}
    {out : Outcome CacheUpdate} (h : u.step c ch = some (c', out)) :
    Fires c u.dto u.phase ch c' out := by
  obtain ⟨dto, phase⟩ := u
  cases ch with
  | fail => cases h; exact .rejects phase
  | read j => cases h
  | body data => cases h
  | draw id => cases h
  | proceed =>
    cases phase with
    | findOne => cases h; exact .found
    | save resource =>
      cases hsave : c.save resource with
      | none => simp only [step, hsave] at h; cases h; exact .duplicate resource hsave
      | some c₁ => simp only [step, hsave] at h; cases h; exact .saved resource _ hsave

/-- What an activation of `updateCache` knows: it writes its own event. -/
def CacheUpdate.Ok (u : CacheUpdate) : Prop :=
  u.dto.result.truthy = true ∧
    ∀ resource, u.phase = .save resource →
      resource.path = u.dto.path ∧ resource.cachedResult = u.dto.result

theorem CacheUpdate.ok_updateCache {dto : SubqueryDto} {u : CacheUpdate}
    (h : updateCache dto = .suspended u) : u.Ok ∧ u.dto = dto := by
  unfold updateCache at h
  split_ifs at h with ht
  obtain rfl := Outcome.suspended.inj h
  exact ⟨⟨ht, by simp⟩, rfl⟩

theorem CacheUpdate.ok_of_fires {c c' : ResourceCollection} {dto : SubqueryDto}
    {phase : UpdatePhase} {ch : Choice} {u : CacheUpdate} (hok : (⟨dto, phase⟩ : CacheUpdate).Ok)
    (h : Fires c dto phase ch c' (.suspended u)) : u.Ok ∧ u.dto = dto := by
  cases h with
  | found =>
    refine ⟨⟨hok.1, fun resource hres => ?_⟩, rfl⟩
    obtain rfl := UpdatePhase.save.inj hres
    exact ⟨rfl, rfl⟩

/-- A segment writes at most the document of its own path, and there the event's
result. -/
theorem CacheUpdate.lookup_of_fires {c c' : ResourceCollection} {dto : SubqueryDto}
    {phase : UpdatePhase} {ch : Choice} {out : Outcome CacheUpdate}
    (hok : (⟨dto, phase⟩ : CacheUpdate).Ok) (h : Fires c dto phase ch c' out) (path : String) :
    c'.docs.lookup path = c.docs.lookup path ∨
      path = dto.path ∧ ∃ i, c'.docs.lookup path = some ⟨i, dto.result⟩ := by
  cases h with
  | rejects => exact .inl rfl
  | found => exact .inl rfl
  | duplicate => exact .inl rfl
  | saved resource _ hsave =>
    obtain ⟨hpath, hres⟩ := hok.2 resource rfl
    obtain ⟨hown, hother⟩ := ResourceCollection.lookup_save hsave
    rw [hpath, hres] at hown
    by_cases hp : path = dto.path
    · subst hp
      exact .inr ⟨rfl, hown⟩
    · exact .inl (hother path (hpath ▸ hp))

/-- A segment changes what is cached for at most its own path, and then to the
event's result. -/
theorem CacheUpdate.cached_of_fires {c c' : ResourceCollection} {dto : SubqueryDto}
    {phase : UpdatePhase} {ch : Choice} {out : Outcome CacheUpdate}
    (hok : (⟨dto, phase⟩ : CacheUpdate).Ok) (h : Fires c dto phase ch c' out) (path : String) :
    c'.cached path = c.cached path ∨ path = dto.path ∧ c'.cached path = dto.result := by
  cases h with
  | rejects => exact .inl rfl
  | found => exact .inl rfl
  | duplicate => exact .inl rfl
  | saved resource _ hsave =>
    obtain ⟨hpath, hres⟩ := hok.2 resource rfl
    have htruthy : dto.result.orNull = dto.result := if_pos hok.1
    rw [ResourceCollection.cached_save hsave, hpath, hres, htruthy]
    split_ifs with hp
    · exact .inr ⟨hp, rfl⟩
    · exact .inl rfl

end SwapiService
