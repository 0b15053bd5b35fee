import SwapiService.Dto

/-!
# The request scheduler

`RequestSchedulerService.scheduleRequestAsync` and
`ScheduledRequestProcessor.process` are the same admission check run on a fresh
event and on a queued job: ask the traffic controller whether the limit is
reached, then either put the request on the queue for a day or publish it as a
`FETCH` event.  They differ in what becomes of an error, and in nothing else.

## Main definitions

* `Admission` — an activation of either: its request and where it waits.
* `admissionStep` — one segment, given what becomes of an error.
* `scheduleRequestAsync`, `process` — the two members of the family.

## Main results

* `fires_of_admissionStep` — what one segment can do.
-/

namespace SwapiService

open TaskPool

/-- A job of the queue `scheduled-requests`: its data, and when it may run. -/
structure Job where
  data : SubqueryDto
  due : ℕ
  deriving DecidableEq, Repr

/-- Where an admission waits: for the reply to its `RATE_LIMIT_USAGE_READ`, or,
having got it, for its turn to act on it. -/
inductive AdmissionPhase
  | readUsage
  | answered (isRateLimited : Bool)
  deriving DecidableEq, Repr

/-- An activation of `scheduleRequestAsync` or of `process`. -/
structure Admission where
  dto : SubqueryDto
  phase : AdmissionPhase
  deriving DecidableEq, Repr

/-- What an admission does to the world: publish a `FETCH` event, or put a job on
the queue that may run after the delay. -/
inductive AdmissionEffect
  | none
  | emitFetch (dto : SubqueryDto)
  | addJob (dto : SubqueryDto) (delay : ℕ)
  deriving DecidableEq, Repr

/-- The delay of a queued request, a day in milliseconds. -/
def requestDelay : ℕ := 86400 * 1000

/-- One segment of an admission.  `isRateLimited` is what the traffic controller
would reply now; an error rejects the awaited call and ends in `onError`.
Publishing an event is not awaited, so it cannot fail here. -/
def admissionStep (onError : Outcome Admission) (isRateLimited : Bool) (a : Admission) :
    Choice → Option (AdmissionEffect × Outcome Admission)
  | .fail =>
      match a.phase with
      | .readUsage => some (.none, onError)
      | .answered true => some (.none, onError)
      | .answered false => none
  | .proceed =>
      match a.phase with
      | .readUsage => some (.none, .suspended { a with phase := .answered isRateLimited })
      -- The job is a new one with the same data: a re-queued request keeps no history.
      | .answered true => some (.addJob a.dto requestDelay, .resolved)
      | .answered false => some (.emitFetch a.dto, .resolved)
  | _ => none

/-- `RequestSchedulerService.scheduleRequestAsync`: an error rejects its promise. -/
def scheduleRequestAsync :
    Bool → Admission → Choice → Option (AdmissionEffect × Outcome Admission) :=
  admissionStep .rejected

/-- `ScheduledRequestProcessor.process`: an error is caught and logged, and the
promise resolves. -/
def process : Bool → Admission → Choice → Option (AdmissionEffect × Outcome Admission) :=
  admissionStep .resolved

/-- The segments of an admission, case by case. -/
inductive Admission.Fires (onError : Outcome Admission) (isRateLimited : Bool) (dto : SubqueryDto) :
    AdmissionPhase → Choice → AdmissionEffect → Outcome Admission → Prop
  | fails (phase : AdmissionPhase) : Fires onError isRateLimited dto phase .fail .none onError
  | answers : Fires onError isRateLimited dto .readUsage .proceed .none
      (.suspended ⟨dto, .answered isRateLimited⟩)
  | queues : Fires onError isRateLimited dto (.answered true) .proceed
      (.addJob dto requestDelay) .resolved
  | emits : Fires onError isRateLimited dto (.answered false) .proceed (.emitFetch dto) .resolved

/-- **What one segment of an admission can do.** -/
theorem fires_of_admissionStep {onError out : Outcome Admission} {isRateLimited : Bool}
    {a : Admission} {c : Choice} {effect : AdmissionEffect}
    (h : admissionStep onError isRateLimited a c = some (effect, out)) :
    Admission.Fires onError isRateLimited a.dto a.phase c effect out := by
  obtain ⟨dto, phase⟩ := a
  cases c with
  | read j => cases h
  | body data => cases h
  | draw id => cases h
  | fail =>
    cases phase with
    | readUsage => cases h; exact .fails _
    | answered b =>
      cases b with
      | false => cases h
      | true => cases h; exact .fails _
  | proceed =>
    cases phase with
    | readUsage => cases h; exact .answers
    | answered b =>
      cases b with
      | false => cases h; exact .emits
      | true => cases h; exact .queues

end SwapiService
