import SwapiService.CacheManager

/-!
# The SWAPI connector

`SwapiConnectorService.fetchDataAsync`: look the path up in the cache, and ask the
downstream service only if it is not there.  When the cache answers, the result
is put into a DTO that is then dropped; only a result fetched from downstream is
published.

## Main definitions

* `HttpGet` — a GET the connector issued, with what came back.
* `Fetch`, `fetchDataStep` — the segments of `fetchDataAsync`.

## Main results

* `fires_of_fetchDataStep` — what one segment can do.
-/

namespace SwapiService

open TaskPool

/-- A downstream GET: its URL, and the body of the answer, if the call succeeded. -/
structure HttpGet where
  url : String
  response : Option Json
  deriving DecidableEq, Repr

/-- The URL of a path: `${this.SWAPI_BASE_URL}/${dto.path}`. -/
def resourceUrl (baseUrl path : String) : String := baseUrl ++ "/" ++ path

/-- Where an activation of `fetchDataAsync` waits: for the cache, until that is read, and
for the GET it has led to, from then on.  The reply of the cache is on its way first, and
the GET is issued when it arrives; nothing that happens in between changes either. -/
inductive FetchPhase
  | readCache
  | get
  deriving DecidableEq, Repr

/-- An activation of `fetchDataAsync`. -/
structure Fetch where
  dto : SubqueryDto
  phase : FetchPhase
  deriving DecidableEq, Repr

/-- What a segment of `fetchDataAsync` does to the world: the GETs it issued, and
the `RECEIVE` events it published. -/
structure FetchEffect where
  gets : List HttpGet
  emitted : List SubqueryDto
  deriving DecidableEq, Repr

/-- One segment of `fetchDataAsync`. -/
def fetchDataStep (baseUrl : String) (cache : ResourceCollection) (f : Fetch) :
    Choice → Option (FetchEffect × Outcome Fetch)
  | .fail =>
      match f.phase with
      | .readCache => some (⟨[], []⟩, .rejected)
      | .get => some (⟨[⟨resourceUrl baseUrl f.dto.path, none⟩], []⟩, .rejected)
  | .proceed =>
      match f.phase with
      | .readCache =>
          let resource := readCacheAsync cache f.dto
          let resourceData := resource.result.orNull
          -- With the result cached, `newResult` has it, but only a fetched one is published.
          if resourceData.truthy then some (⟨[], []⟩, .resolved)
          else some (⟨[], []⟩, .suspended { f with phase := .get })
      | .get => none
  | .body data =>
      match f.phase with
      | .readCache => none
      | .get =>
          some (⟨[⟨resourceUrl baseUrl f.dto.path, some data⟩], [{ f.dto with result := data }]⟩,
            .resolved)
  | _ => none

/-- The segments of `fetchDataAsync`, case by case. -/
inductive Fetch.Fires (baseUrl : String) (cache : ResourceCollection) (dto : SubqueryDto) :
    FetchPhase → Choice → FetchEffect → Outcome Fetch → Prop
  | rejects : Fires baseUrl cache dto .readCache .fail ⟨[], []⟩ .rejected
  | hit (h : (cache.cached dto.path).truthy = true) :
      Fires baseUrl cache dto .readCache .proceed ⟨[], []⟩ .resolved
  | miss (h : ¬ (cache.cached dto.path).truthy = true) :
      Fires baseUrl cache dto .readCache .proceed ⟨[], []⟩ (.suspended ⟨dto, .get⟩)
  | unavailable : Fires baseUrl cache dto .get .fail
      ⟨[⟨resourceUrl baseUrl dto.path, none⟩], []⟩ .rejected
  | fetched (data : Json) : Fires baseUrl cache dto .get (.body data)
      ⟨[⟨resourceUrl baseUrl dto.path, some data⟩], [{ dto with result := data }]⟩ .resolved

/-- **What one segment of `fetchDataAsync` can do.** -/
theorem fires_of_fetchDataStep {baseUrl : String} {cache : ResourceCollection} {f : Fetch}
    {c : Choice} {effect : FetchEffect} {out : Outcome Fetch}
    (h : fetchDataStep baseUrl cache f c = some (effect, out)) :
    Fetch.Fires baseUrl cache f.dto f.phase c effect out := by
  obtain ⟨dto, phase⟩ := f
  cases c with
  | read j => cases h
  | draw id => cases h
  | fail =>
    cases phase with
    | readCache => cases h; exact .rejects
    | get => cases h; exact .unavailable
  | body data =>
    cases phase with
    | readCache => cases h
    | get => cases h; exact .fetched data
  | proceed =>
    cases phase with
    | get => cases h
    | readCache =>
      simp only [fetchDataStep, readCacheAsync, Json.truthy_orNull] at h
      split_ifs at h with ht
      · cases h; exact .hit ht
      · cases h; exact .miss ht

end SwapiService
