import SwapiService.InFlight
import SwapiService.Lib.History

/-!
# Rejected promises

The system again, with its promises.  An awaited call may fail with any error, and then
the promise of the activation that awaits it is rejected, unless the activation catches
the error.  Nest awaits the promises of the request handlers, and the queue those of its
processor.  The controllers of the events drop theirs; so does `RedisRepository.multiExec`
with the promise of the `MULTI`.  The POST to a callback has a handler of its own, which
reads the response of the error, whether it has one or not.

## Main definitions

* `CallError`, `Settled` — what an awaited call may be rejected with.
* `PromiseTask`, `promises` — the machine: the tasks of the system, and the promises it
  leaves out.
* `Reaction.unhandled` — a promise is rejected that nobody handles.
* `PromiseTask.Settles`, `Contained` — no such promise is.

## Main results

* `project_step` — its runs are runs of the system.
* `PromiseTask.unhandled_iff` — when a reaction leaves a rejection without a handler.
* `failures_contained_iff` — the same for runs.
* `failure_escapes` — a path the downstream service does not know.
-/

namespace SwapiService

open TaskPool Transition

/-! ### The machine -/

/-- What a call is rejected with: an HTTP error with the response's status, or any other
error, which has no response. -/
inductive CallError
  | response (status : ℕ)
  | noResponse
  deriving DecidableEq, Repr

/-- A choice, and the error if the choice is that the awaited call fails. -/
structure Settled where
  choice : Choice
  error : CallError
  deriving DecidableEq, Repr

/-- The handler of a POST that fails:
`this.logger.error('Error notifying HTTP callback', error.response.status)`.  It throws
when there is no response. -/
def notifyErrorHandler : CallError → Option ℕ
  | .response status => some status
  | .noResponse => none

/-- A task of the system; an activation of `logUsage` that waits for the count it logs
last; the promise of a POST to a callback. -/
inductive PromiseTask
  | task (t : Task)
  | logUsageCount
  | post (p : Notification)
  deriving DecidableEq, Repr

/-- The promises a reaction starts besides the tasks of the system.  After its clock read
`logUsage` goes on to its last count at once, as `multiExec` does not await the `MULTI`. -/
def Task.starts (s : Store) : Task → Choice → List PromiseTask
  | .usageLogger _ .getUsageCount, .draw _ => [.logUsageCount]
  | .handler t, c => (t.step s.db s.cache c).elim [] fun e => e.posts.map .post
  | _, _ => []

/-- How a task reacts. -/
def promisesReact (cfg : Settings) (s : Store) :
    PromiseTask → Settled → Option (Store × List PromiseTask)
  | .task t, c => (react cfg s t c.choice).map fun r =>
      (r.1, r.2.map .task ++ t.starts s c.choice)
  | .logUsageCount, ⟨.proceed, _⟩ => some (s, [])
  | .logUsageCount, ⟨.fail, _⟩ => some (s, [])
  | .post _, ⟨.proceed, _⟩ => some (s, [])
  | .post _, ⟨.fail, _⟩ => some (s, [])
  | _, _ => none

/-- What happens from outside. -/
def promisesEnvironment (s : Store) (e : EnvAct) : Option (Store × List PromiseTask) :=
  (environment s e).map fun r => (r.1, r.2.map .task)

/-- The system with its promises. -/
def promises (cfg : Settings) : Machine Store PromiseTask Settled EnvAct :=
  ⟨promisesReact cfg, promisesEnvironment⟩

/-! ### Rejections -/

/-- The promise of the activation is rejected. -/
def Task.rejects (cfg : Settings) (s : Store) : Task → Choice → Bool
  | .creation t, c => (t.step s.db s.cache c).any fun e => e.outcome = .rejected
  | .scheduler a, c => (scheduleRequestAsync (s.isRateLimited cfg) a c).any fun r => r.2 = .rejected
  | .processor a, c => (process (s.isRateLimited cfg) a c).any fun r => r.2 = .rejected
  | .usageLogger _ u, c => (logUsageStep s.clock s.usage u c).any fun r => r.2 = .rejected
  | .connector f, c => (fetchDataStep cfg.swapiBaseUrl s.cache f c).any fun r => r.2 = .rejected
  | .handler t, c => (t.step s.db s.cache c).any fun e => e.outcome = .rejected
  | .updater u, c => (u.step s.cache c).any fun r => r.2 = .rejected
  | _, _ => false

/-- The promise is rejected.  That of a POST is the one `catch` returns, which is rejected
if the handler throws. -/
def PromiseTask.rejects (cfg : Settings) (s : Store) : PromiseTask → Settled → Bool
  | .task t, c => t.rejects cfg s c.choice
  | .logUsageCount, c => c.choice = .fail
  | .post _, c => c.choice = .fail ∧ notifyErrorHandler c.error = none

/-- Somebody awaits the promise: a request handler is awaited by its controller and Nest,
`process` by the worker of the queue.  The other controllers return before theirs is
settled, and nobody has the promise of the `MULTI`. -/
def PromiseTask.isAwaited : PromiseTask → Bool
  | .task (.creation _) => true
  | .task (.processor _) => true
  | _ => false

/-- A promise is rejected that nobody handles. -/
def Reaction.unhandled (cfg : Settings) (r : Reaction Store PromiseTask Settled) : Bool :=
  r.task.rejects cfg r.store r.choice && !r.task.isAwaited

/-- What a handler looks for is there, and its row can be saved. -/
def Handler.Succeeds (db : Database) (t : Handler) : Prop :=
  match t.phase with
  | .findSubquery => db.findSubquery t.dto.id ≠ none
  | .findQuery _ => db.findQuery t.dto.queryId ≠ none
  | .saveSubquery subquery _ _ => db.saveSubquery subquery ≠ none
  | _ => True

/-- The unique index does not refuse what an update saves. -/
def CacheUpdate.Succeeds (cache : ResourceCollection) (u : CacheUpdate) : Prop :=
  match u.phase with
  | .save resource => cache.save resource ≠ none
  | _ => True

/-- Nothing is rejected that nobody handles: no call fails of an activation whose promise
is dropped, and the error of a POST has a response. -/
def PromiseTask.Settles (s : Store) (c : Settled) : PromiseTask → Prop
  | .task (.scheduler _) => c.choice ≠ .fail
  | .task (.connector _) => c.choice ≠ .fail
  | .task (.usageLogger _ _) => c.choice ≠ .fail
  | .task (.updater u) => c.choice ≠ .fail ∧ u.Succeeds s.cache
  | .task (.handler t) => c.choice ≠ .fail ∧ t.Succeeds s.db
  | .task _ => True
  | .logUsageCount => c.choice ≠ .fail
  | .post _ => c.choice = .fail → ∃ status, c.error = .response status

/-- The action runs a task that settles. -/
def Contained (s : Config Store PromiseTask) : Act Settled EnvAct → Prop
  | .run i c => ∀ t, s.pool[i]? = some t → t.Settles s.store c
  | .env _ => True

/-! ### One reaction -/

section Reactions

variable {cfg : Settings} {s s' : Store} {t : Task} {c : Choice} {ts : List Task}

/-- **When a task's promise is rejected and dropped.** -/
theorem Task.rejects_iff {error : CallError} (h : react cfg s t c = some (s', ts)) :
    (t.rejects cfg s c && !(PromiseTask.task t).isAwaited) = true ↔
      ¬ (PromiseTask.task t).Settles s ⟨c, error⟩ := by
  cases t with
  | scheduler a =>
    obtain ⟨⟨effect, out⟩, hstep, -⟩ := Option.map_eq_some_iff.mp h
    have hfires := fires_of_admissionStep hstep
    simp only [rejects, hstep, Option.any_some, PromiseTask.isAwaited, PromiseTask.Settles]
    obtain ⟨dto, phase⟩ := a
    cases hfires <;> simp
  | connector f =>
    obtain ⟨⟨effect, out⟩, hstep, -⟩ := Option.map_eq_some_iff.mp h
    have hfires := fires_of_fetchDataStep hstep
    simp only [rejects, hstep, Option.any_some, PromiseTask.isAwaited, PromiseTask.Settles]
    obtain ⟨dto, phase⟩ := f
    cases hfires <;> simp
  | usageLogger dto u =>
    simp only [react] at h
    split_ifs at h
    obtain ⟨⟨log, out⟩, hstep, -⟩ := Option.map_eq_some_iff.mp h
    have hfires := fires_of_logUsageStep hstep
    simp only [rejects, hstep, Option.any_some, PromiseTask.isAwaited, PromiseTask.Settles]
    cases hfires <;> simp
  | updater u =>
    obtain ⟨⟨cache, out⟩, hstep, -⟩ := Option.map_eq_some_iff.mp h
    have hfires := CacheUpdate.fires_of_step hstep
    obtain ⟨dto, phase⟩ := u
    simp only [rejects, hstep, Option.any_some, PromiseTask.isAwaited, PromiseTask.Settles,
      CacheUpdate.Succeeds]
    cases hfires with
    | rejects => simp
    | found => simp
    | saved resource c' hsave => simp [hsave]
    | duplicate resource hsave => simp [hsave]
  | handler t =>
    obtain ⟨e, hstep, -⟩ := Option.map_eq_some_iff.mp h
    have hfires := Handler.fires_of_step hstep
    obtain ⟨dto, phase⟩ := t
    simp only [rejects, hstep, Option.any_some, PromiseTask.isAwaited, PromiseTask.Settles,
      Handler.Succeeds]
    cases hfires with
    | noSubquery hfind => simp [hfind]
    | foundSubquery subquery hfind => simp [hfind]
    | noQuery subquery hfind => simp [hfind]
    | foundQuery subquery query hfind => simp [hfind]
    | unsaved subquery updated latest hsave => simp [hsave]
    | savedSubquery subquery updated latest db' hsave => simp [hsave]
    | _ => simp
  | creation t => simp [PromiseTask.isAwaited, PromiseTask.Settles]
  | processor a => simp [PromiseTask.isAwaited, PromiseTask.Settles]
  | _ => simp [rejects, PromiseTask.Settles]

end Reactions

/-- **When a reaction leaves a rejection without a handler.** -/
theorem PromiseTask.unhandled_iff {cfg : Settings} {s s' : Store} {t : PromiseTask} {c : Settled}
    {ts : List PromiseTask} (h : promisesReact cfg s t c = some (s', ts)) :
    Reaction.unhandled cfg ⟨s, t, c⟩ = true ↔ ¬ t.Settles s c := by
  obtain ⟨choice, error⟩ := c
  cases t with
  | task t =>
    obtain ⟨⟨s'', ts'⟩, hreact, -⟩ := Option.map_eq_some_iff.mp h
    exact Task.rejects_iff hreact
  | logUsageCount => simp [Reaction.unhandled, rejects, isAwaited, Settles]
  | post p =>
    -- The handler throws just in case there is no response.
    cases error with
    | response status => simp [Reaction.unhandled, rejects, isAwaited, Settles, notifyErrorHandler]
    | noResponse => simp [Reaction.unhandled, rejects, isAwaited, Settles, notifyErrorHandler]

/-! ### Runs -/

/-- The task of the system. -/
def PromiseTask.toTask : PromiseTask → Option Task
  | .task t => some t
  | _ => none

section Runs

variable {cfg : Settings} {s₀ s s' : Config Store PromiseTask}
  {tr : List (Config Store PromiseTask × Act Settled EnvAct)}

theorem filterMap_toTask (ts : List Task) :
    (ts.map PromiseTask.task).filterMap PromiseTask.toTask = ts := by
  rw [List.filterMap_map]
  exact List.filterMap_some

/-- The promises a reaction starts are not tasks of the system. -/
theorem Task.filterMap_starts (st : Store) (t : Task) (c : Choice) :
    (t.starts st c).filterMap PromiseTask.toTask = [] := by
  cases t with
  | usageLogger dto u => cases u <;> cases c <;> rfl
  | handler t =>
    simp only [starts]
    cases t.step st.db st.cache c with
    | none => rfl
    | some e =>
      show (e.posts.map PromiseTask.post).filterMap PromiseTask.toTask = []
      rw [List.filterMap_map]
      exact List.filterMap_eq_nil_iff.mpr fun _ _ => rfl
  | _ => rfl

/-- **A step is one of the system**, or the system does not see it. -/
theorem project_step {a : Act Settled EnvAct} (hs : (promises cfg).step s a = some s') :
    s'.forget PromiseTask.toTask = s.forget PromiseTask.toTask ∨
      ∃ a', (system cfg).step (s.forget PromiseTask.toTask) a'
        = some (s'.forget PromiseTask.toTask) := by
  refine Machine.step_forget (g := Settled.choice) ?_ ?_ ?_ hs
  · intro st t' t c st' ts' ht h
    cases t' with
    | task u =>
      obtain rfl := Option.some.inj ht
      obtain ⟨⟨st'', ts⟩, hreact, h⟩ := Option.map_eq_some_iff.mp h
      cases h
      rw [List.filterMap_append, filterMap_toTask, Task.filterMap_starts, List.append_nil]
      exact hreact
    | logUsageCount => cases ht
    | post p => cases ht
  · intro st t' c st' ts' ht h
    obtain ⟨choice, error⟩ := c
    cases t' with
    | task u => cases ht
    | logUsageCount => cases choice <;> cases h <;> exact ⟨rfl, rfl⟩
    | post p => cases choice <;> cases h <;> exact ⟨rfl, rfl⟩
  · intro st e st' ts' h
    obtain ⟨⟨st'', ts⟩, henv, h⟩ := Option.map_eq_some_iff.mp h
    cases h
    rw [filterMap_toTask]
    exact henv

theorem reachable_forget (h : Reachable (promises cfg).step s₀ s) :
    Reachable (system cfg).step (s₀.forget PromiseTask.toTask) (s.forget PromiseTask.toTask) := by
  refine h.invariant (I := fun s => Reachable (system cfg).step (s₀.forget PromiseTask.toTask)
    (s.forget PromiseTask.toTask)) (Reachable.refl _) ?_
  intro t a t' hreach hs
  rcases project_step hs with heq | ⟨a', hs'⟩
  · rw [heq]
    exact hreach
  · exact hreach.tail hs'

/-- **When failures are contained.**  In every run, from any state, no promise is rejected
that nobody handles just in case every reaction settles. -/
theorem failures_contained_iff (cfg : Settings) (h : Run (promises cfg).step s₀ tr s) :
    (∀ r ∈ reactions tr, Reaction.unhandled cfg r = false) ↔ ∀ p ∈ tr, Contained p.1 p.2 := by
  induction h with
  | nil => simp [reactions]
  | @snoc tr s s' a hrun hs ih =>
    simp only [List.mem_append, List.mem_singleton, or_imp, forall_and, forall_eq]
    rcases Machine.step_cases hs with ⟨i, c, t, rest, ts, rfl, hr⟩ | ⟨e, ts, rfl, -, -⟩
    · have hreaction := PromiseTask.unhandled_iff hr.react
      have hlast : (Reaction.unhandled cfg ⟨s.store, t, c⟩ = false) ↔ Contained s (.run i c) := by
        simp only [Contained, hr.get, Option.some.injEq, forall_eq']
        rw [← Bool.not_eq_true, hreaction, not_not]
      rw [reactions_run hr]
      simp only [List.mem_append, List.mem_singleton, or_imp, forall_and, forall_eq]
      rw [ih, hlast]
    · rw [reactions_env, ih]
      exact (and_iff_left trivial).symm

end Runs

/-- Before the first request. -/
def noPromises : Config Store PromiseTask := ⟨initial.store, []⟩

/-- The choice that nothing fails. -/
def Choice.settled (c : Choice) : Settled := ⟨c, .noResponse⟩

/-- A request for a path the downstream service does not know: its GET is answered with
the status 404, for which the promise of the call is rejected. -/
def unknownPath : List (Act Settled EnvAct) :=
  [.env (.create ⟨["people/0"], none⟩ [⟨0⟩] ⟨1⟩), .run 0 (Choice.read 0).settled,
    .run 0 Choice.proceed.settled, .run 0 Choice.proceed.settled, .run 0 Choice.proceed.settled,
    .run 0 Choice.proceed.settled, .run 0 Choice.proceed.settled, .run 0 Choice.proceed.settled,
    .run 0 Choice.proceed.settled, .run 1 Choice.proceed.settled,
    .run 1 ⟨.fail, .response 404⟩]

theorem failures_contained_iff_unknownPath :
    ∃ tr s, Run (promises ⟨1, "http://swapi", some⟩).step noPromises tr s ∧
      tr.map Prod.snd = unknownPath ∧
      ((∀ r ∈ reactions tr, Reaction.unhandled ⟨1, "http://swapi", some⟩ r = false) ↔
        ∀ p ∈ tr, Contained p.1 p.2) := by
  have hexec : (exec (promises ⟨1, "http://swapi", some⟩).step noPromises unknownPath).any
      (fun _ => true) = true := by decide +kernel
  obtain ⟨tr, s, hrun, htr, -⟩ := exists_run_of_exec _ hexec
  exact ⟨tr, s, hrun, htr, failures_contained_iff _ hrun⟩

/-- **A failure that escapes**: the promise of `fetchDataAsync` is rejected, and its
controller has returned long ago. -/
theorem failure_escapes :
    ∃ tr s, Run (promises ⟨1, "http://swapi", some⟩).step noPromises tr s ∧
      tr.map Prod.snd = unknownPath ∧
      ∃ r ∈ reactions tr, r.task = .task (.connector ⟨⟨⟨0⟩, "people/0", ⟨1⟩, .null⟩, .get⟩) ∧
        r.choice = ⟨.fail, .response 404⟩ ∧
        Reaction.unhandled ⟨1, "http://swapi", some⟩ r = true := by
  have hexec : (execTrace (promises ⟨1, "http://swapi", some⟩).step noPromises unknownPath).any
      (fun p => (reactions p.1).any fun r =>
        decide (r.task = .task (.connector ⟨⟨⟨0⟩, "people/0", ⟨1⟩, .null⟩, .get⟩) ∧
          r.choice = ⟨.fail, .response 404⟩ ∧
          Reaction.unhandled ⟨1, "http://swapi", some⟩ r = true)) = true := by
    decide +kernel
  obtain ⟨tr, s, hrun, htr, hp⟩ := exists_run_of_execTrace _ hexec
  obtain ⟨r, hr, hescapes⟩ := List.any_eq_true.mp hp
  exact ⟨tr, s, hrun, htr, r, hr, of_decide_eq_true hescapes⟩

end SwapiService
