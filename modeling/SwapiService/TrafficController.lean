import SwapiService.Dto

/-!
# The traffic controller

The sliding-window usage log of `TrafficControllerService`, a sorted set in Redis
under the key `system:usage_log`, with the commands the service sends.  Times are
in milliseconds.

## Main definitions

* `UsageLog` — the sorted set, and when its key expires.
* `multiExec` — the `MULTI` that records one usage: trim, add, refresh the expiry.
* `getIsRateLimitedAsync` — the check.
* `UsageLogging`, `logUsageStep` — the segments of `logUsage`.

## Main results

* `fires_of_logUsageStep` — what one segment can do.
-/

namespace SwapiService

open TaskPool

/-- `oneDayInSeconds`. -/
def oneDayInSeconds : ℕ := 60 * 60 * 24

/-- The window of the limiter. -/
def windowInMilliseconds : ℕ := oneDayInSeconds * 1000

/-- A member of the sorted set, with its score. -/
structure UsageEntry where
  usageId : Uuid
  score : ℕ
  deriving DecidableEq, Repr

/-- The key `system:usage_log`: its sorted set, and when the key will be deleted. -/
structure UsageLog where
  entries : List UsageEntry
  expiresAt : Option ℕ
  deriving DecidableEq, Repr

namespace UsageLog

/-- The key does not exist. -/
def empty : UsageLog := ⟨[], none⟩

/-- `ZREMRANGEBYSCORE key -inf max`. -/
def zremrangebyscore (log : UsageLog) (max : ℤ) : UsageLog :=
  { log with entries := log.entries.filter fun e => max < e.score }

/-- `ZADD key score member`: a member that is there already gets the new score. -/
def zadd (log : UsageLog) (score : ℕ) (usageId : Uuid) : UsageLog :=
  { log with entries := log.entries.filter (fun e => e.usageId ≠ usageId) ++ [⟨usageId, score⟩] }

/-- `EXPIRE key seconds`, executed at `clock`. -/
def expire (log : UsageLog) (clock seconds : ℕ) : UsageLog :=
  { log with expiresAt := some (clock + seconds * 1000) }

/-- `ZCARD key`. -/
def zcard (log : UsageLog) : ℕ := log.entries.length

/-- Redis deletes the key once its time has come. -/
def lapse (log : UsageLog) (clock : ℕ) : UsageLog :=
  match log.expiresAt with
  | some t => if t ≤ clock then empty else log
  | none => log

/-- The `MULTI` of `logUsage`, executed at `clock`, for a usage of time `now`. -/
def multiExec (log : UsageLog) (clock now : ℕ) (usageId : Uuid) : UsageLog :=
  ((log.zremrangebyscore ((now : ℤ) - windowInMilliseconds)).zadd now usageId).expire clock
    oneDayInSeconds

/-- `getUsageCount`. -/
def getUsageCount (log : UsageLog) : ℕ := log.zcard

/-- `getIsRateLimitedAsync`, with `limit` for `REQUEST_LIMIT`. -/
def getIsRateLimitedAsync (limit : ℕ) (log : UsageLog) : Bool := limit ≤ log.getUsageCount

end UsageLog

/-! ### The handler of a `FETCH` event -/

/-- Where an activation of `logUsage` waits: for the count it logs first, or,
having read the clock and drawn an id, for its `MULTI` to be executed.  The count
it logs last changes nothing and is left out. -/
inductive UsageLogging
  | getUsageCount
  | multiExec (now : ℕ) (usageId : Uuid)
  deriving DecidableEq, Repr

/-- One segment of `logUsage` at time `clock`. -/
def logUsageStep (clock : ℕ) (log : UsageLog) (u : UsageLogging) :
    Choice → Option (UsageLog × Outcome UsageLogging)
  -- Either call may fail, and nobody waits for the promise.
  | .fail => some (log, .rejected)
  -- The count is read, and `uuidv4` and `Date` are called after it.
  | .draw usageId =>
      match u with
      | .getUsageCount => some (log, .suspended (.multiExec clock usageId))
      | .multiExec _ _ => none
  | .proceed =>
      match u with
      | .getUsageCount => none
      | .multiExec now usageId => some (log.multiExec clock now usageId, .resolved)
  | _ => none

/-- The segments of `logUsage`, case by case. -/
inductive UsageLogging.Fires (clock : ℕ) (log : UsageLog) :
    UsageLogging → Choice → UsageLog → Outcome UsageLogging → Prop
  | fails (u : UsageLogging) : Fires clock log u .fail log .rejected
  | reads (usageId : Uuid) : Fires clock log .getUsageCount (.draw usageId) log
      (.suspended (.multiExec clock usageId))
  | records (now : ℕ) (usageId : Uuid) : Fires clock log (.multiExec now usageId) .proceed
      (log.multiExec clock now usageId) .resolved

/-- **What one segment of `logUsage` can do.** -/
theorem fires_of_logUsageStep {clock : ℕ} {log log' : UsageLog} {u : UsageLogging} {c : Choice}
    {out : Outcome UsageLogging} (h : logUsageStep clock log u c = some (log', out)) :
    UsageLogging.Fires clock log u c log' out := by
  cases c with
  | read j => cases h
  | body data => cases h
  | fail => cases h; exact .fails u
  | draw id =>
    cases u with
    | getUsageCount => cases h; exact .reads id
    | multiExec now usageId => cases h
  | proceed =>
    cases u with
    | getUsageCount => cases h
    | multiExec now usageId => cases h; exact .records now usageId

end SwapiService
