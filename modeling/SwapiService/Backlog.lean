import SwapiService.Punctuality

/-!
# The backlog

What is left when the system is at rest is the backlog: the requests that the limit has put
off.  When the queue runs them, all within a day, the usages of the day before may still be
in the log, or those of the hours before, so a whole day can pass without a request getting
through.  Two days cannot: whatever is still put off by then was put off on the second day,
when nothing counted but what had got through meanwhile.

## Main definitions

* `Task.claimsUsage` — a request that is still to be checked, or to be logged.
* `QueueStep` — what a task that stems from the queue can do.
* `Orderly` — no job is late, and what is in the log counts.
* `FullLog`, `LogStage` — what the log holds in the days after a rest.
* `Period` — how many requests have got through since.

## Main results

* `Orderly.move`, `FullLog.move`, `LogStage.move`, `Period.move` — what a step of the
  machine keeps.
* `LogStage.tick`, `Period.tick` — what the passing of time keeps.
* `length_le_of_prompt` — in two days the limit gets through, or all.
* `backlog_drains` — the backlog goes down by the limit every two days.
-/

namespace SwapiService

open TaskPool Transition

/-! ### The usage log -/

namespace UsageLog

variable {log : UsageLog} {clock time : ℕ}

/-- All usages in the log are within the window. -/
def Trimmed (log : UsageLog) (clock : ℕ) : Prop :=
  ∀ e ∈ log.entries, clock < e.score + windowInMilliseconds

/-- How many usages in the log are of a later time. -/
def countSince (log : UsageLog) (time : ℕ) : ℕ := log.entries.countP fun e => time < e.score

/-- Recording a usage trims the log. -/
theorem trimmed_multiExec (log : UsageLog) (clock : ℕ) (usageId : Uuid) :
    (log.multiExec clock clock usageId).Trimmed clock := by
  intro e he
  rcases mem_multiExec.mp he with ⟨-, hlater, -⟩ | rfl
  · exact hlater
  · exact Nat.lt_add_of_pos_right (by decide)

/-- Recording a usage adds one at most. -/
theorem countSince_multiExec (log : UsageLog) (clock now time : ℕ) (usageId : Uuid) :
    (log.multiExec clock now usageId).countSince time ≤ log.countSince time + 1 := by
  unfold countSince
  rw [entries_multiExec, List.countP_append]
  refine Nat.add_le_add ?_ (List.countP_le_length.trans_eq rfl)
  exact (List.filter_sublist.trans List.filter_sublist).countP_le

/-- Replacing a member of a sorted set takes out one at most. -/
theorem length_le_of_nodup_usageIds {l : List UsageEntry} (usageId : Uuid)
    (h : (l.map UsageEntry.usageId).Nodup) :
    l.length ≤ (l.filter fun e => e.usageId ≠ usageId).length + 1 := by
  have hone : l.countP (fun e => e.usageId = usageId) ≤ 1 := by
    have hcount := List.nodup_iff_count_le_one.mp h usageId
    rw [List.count, List.countP_map] at hcount
    simpa [Function.comp_def, beq_eq_decide] using hcount
  have hsplit := List.length_eq_countP_add_countP
    (fun e : UsageEntry => e.usageId = usageId) (l := l)
  have hrest : (l.filter fun e => e.usageId ≠ usageId).length
      = l.countP fun e => e.usageId ≠ usageId := List.countP_eq_length_filter.symm
  simp only [decide_eq_true_eq] at hsplit
  rw [hrest]
  simp only [ne_eq]
  omega

/-- Out of a trimmed log recording a usage takes none. -/
theorem Trimmed.getUsageCount_le (h : log.Trimmed clock) (hkept : log.Kept clock)
    (usageId : Uuid) :
    log.getUsageCount ≤ (log.multiExec clock clock usageId).getUsageCount := by
  have hall : (log.entries.filter fun e => (clock : ℤ) - windowInMilliseconds < e.score)
      = log.entries := by
    refine List.filter_eq_self.mpr fun e he => ?_
    have hlater := h e he
    refine decide_eq_true ?_
    omega
  show log.entries.length ≤ (log.multiExec clock clock usageId).entries.length
  rw [entries_multiExec, hall, List.length_append, List.length_singleton]
  exact length_le_of_nodup_usageIds usageId hkept.members

/-- Of a time to come there are none. -/
theorem Kept.countSince_eq_zero (h : log.Kept clock) : log.countSince clock = 0 := by
  refine List.countP_eq_zero.mpr fun e he => ?_
  have hpast := h.past e he
  rw [decide_eq_true_eq]
  omega

/-- If all are of a later time, all are counted. -/
theorem countSince_eq (h : ∀ e ∈ log.entries, time < e.score) :
    log.countSince time = log.getUsageCount := by
  refine List.countP_eq_length.mpr fun e he => ?_
  exact decide_eq_true (h e he)

end UsageLog

/-! ### What stems from the queue -/

/-- A request that is still to be checked, or, having passed, to be logged. -/
def Task.claimsUsage : Task → Bool
  | .job _ => true
  | .processor _ => true
  | .fetchToTraffic _ => true
  | .usageLogger _ _ => true
  | _ => false

/-- A request that has passed, and is not logged yet. -/
def Task.granted : Task → Prop
  | .processor a => a.phase = .answered false
  | .fetchToTraffic _ => True
  | .usageLogger _ _ => True
  | _ => False

/-- The usage of a request that was emitted, up to its `MULTI`. -/
def Task.logs : Task → Bool
  | .fetchToTraffic _ => true
  | .usageLogger _ _ => true
  | _ => false

/-- What an emitted request leads to, apart from its usage. -/
def Task.serving : Task → Bool
  | .fetchToConnector _ => true
  | .connector _ => true
  | .receiveToQueryManager _ => true
  | .receiveToCacheManager _ => true
  | .handler _ => true
  | .updater _ => true
  | _ => false

/-- A task that stems from the queue, where a usage to be logged is of the time `clock`. -/
def Task.FromQueue (clock : ℕ) : Task → Prop
  | .creation _ => False
  | .scheduleFetch _ => False
  | .scheduler _ => False
  | .usageLogger _ (.multiExec now _) => now = clock
  | _ => True

/-- What such a task does to the log, and what it turns into. -/
inductive QueueStep (cfg : Settings) (s : Store) : Task → UsageLog → List Task → Prop
  | runs (j : Job) (h : j.due ≤ s.clock) :
      QueueStep cfg s (.job j) s.usage [.processor ⟨j.data, .readUsage⟩]
  | checks (dto : SubqueryDto) : QueueStep cfg s (.processor ⟨dto, .readUsage⟩) s.usage
      [.processor ⟨dto, .answered (s.isRateLimited cfg)⟩]
  | putsOff (dto : SubqueryDto) : QueueStep cfg s (.processor ⟨dto, .answered true⟩) s.usage
      [.job ⟨dto, s.clock + windowInMilliseconds⟩]
  | passes (dto : SubqueryDto) : QueueStep cfg s (.processor ⟨dto, .answered false⟩) s.usage
      [.fetchToConnector dto, .fetchToTraffic dto]
  | logs {t u : Task} (ht : t.logs = true) (hu : u.logs = true) (hnow : u.FromQueue s.clock) :
      QueueStep cfg s t s.usage [u]
  | records (dto : SubqueryDto) (usageId : Uuid) :
      QueueStep cfg s (.usageLogger dto (.multiExec s.clock usageId))
        (s.usage.multiExec s.clock s.clock usageId) []
  | serves {t : Task} {ts : List Task} (hts : ∀ u ∈ ts, u.serving = true) :
      QueueStep cfg s t s.usage ts

/-- **What a task that stems from the queue can do.** -/
theorem Reacts.queueStep {cfg : Settings} {s s' : Store} {t : Task} {c : Choice} {ts : List Task}
    (ht : t.FromQueue s.clock) (h : Reacts cfg s t c s' ts) : QueueStep cfg s t s'.usage ts := by
  cases h with
  | creation h => exact ht.elim
  | scheduleFetch payload => exact ht.elim
  | scheduler h => exact ht.elim
  | job j hdue => exact .runs j hdue
  | @processor a _ _ _ h =>
    obtain ⟨dto, phase⟩ := a
    cases h with
    | fails => exact .serves (by simp [AdmissionEffect.tasks])
    | answers => exact .checks dto
    | queues => exact .putsOff dto
    | emits => exact .passes dto
  | fetchToTraffic dto => exact .logs rfl rfl trivial
  | @usageLogger dto u _ _ _ hfresh h =>
    cases h with
    | fails => exact .serves (by simp)
    | reads usageId => exact .logs rfl rfl rfl
    | records now usageId =>
      obtain rfl : now = s.clock := ht
      exact .records dto usageId
  | fetchToConnector dto => exact .serves (by simp [Task.serving])
  | @connector f _ _ _ h =>
    obtain ⟨dto, phase⟩ := f
    refine .serves ?_
    cases h <;> simp [receiveMessages, Task.serving]
  | receiveToQueryManager => exact .serves (by simp [Task.serving])
  | refusedToQueryManager => exact .serves (by simp)
  | receiveToCacheManager => exact .serves (Outcome.forall_tasks fun _ _ => rfl)
  | refusedToCacheManager => exact .serves (by simp)
  | handler h =>
    exact .serves (Effect.forall_tasks (by simp [Handler.emitted_of_fires h]) fun _ _ => rfl)
  | updater h => exact .serves (Outcome.forall_tasks fun _ _ => rfl)

section QueueStep

variable {cfg : Settings} {s : Store} {t u : Task} {log : UsageLog} {ts : List Task}

theorem Task.fromQueue_of_serving {clock : ℕ} (h : u.serving = true) : u.FromQueue clock := by
  cases u <;> trivial

/-- What stems from the queue leads to nothing else. -/
theorem QueueStep.fromQueue (h : QueueStep cfg s t log ts) (hu : u ∈ ts) :
    u.FromQueue s.clock := by
  revert u
  cases h with
  | logs _ _ hnow => simpa using hnow
  | serves hts => exact fun hu => Task.fromQueue_of_serving (hts _ hu)
  | _ => simp [Task.FromQueue]

/-- A job it leads to is due in a day, and the limit has put it off. -/
theorem QueueStep.job_cases (h : QueueStep cfg s t log ts) {j : Job} (hu : .job j ∈ ts) :
    j.due = s.clock + windowInMilliseconds ∧ log = s.usage ∧
      t = .processor ⟨j.data, .answered true⟩ := by
  cases h with
  | putsOff dto =>
    obtain rfl := Task.job.inj (List.mem_singleton.mp hu)
    exact ⟨rfl, rfl, rfl⟩
  | logs _ hlogs _ =>
    obtain rfl := List.mem_singleton.mp hu
    cases hlogs
  | serves hts => cases hts _ hu
  | _ => simp at hu

/-- A request it leads to was on the queue, or has been checked just now. -/
theorem QueueStep.processor_cases (h : QueueStep cfg s t log ts) {a : Admission}
    (hu : .processor a ∈ ts) : log = s.usage ∧
      ((∃ j : Job, t = .job j ∧ j.due ≤ s.clock ∧ a.phase = .readUsage) ∨
        ∃ dto, t = .processor ⟨dto, .readUsage⟩ ∧ a.phase = .answered (s.isRateLimited cfg)) := by
  cases h with
  | runs j hdue =>
    obtain rfl := Task.processor.inj (List.mem_singleton.mp hu)
    exact ⟨rfl, .inl ⟨j, rfl, hdue, rfl⟩⟩
  | checks dto =>
    obtain rfl := Task.processor.inj (List.mem_singleton.mp hu)
    exact ⟨rfl, .inr ⟨dto, rfl, rfl⟩⟩
  | logs _ hlogs _ =>
    obtain rfl := List.mem_singleton.mp hu
    cases hlogs
  | serves hts => cases hts _ hu
  | _ => simp at hu

theorem Task.granted_of_logs (h : t.logs = true) : t.granted := by
  cases t <;> trivial

/-- A request passes below the limit only. -/
theorem QueueStep.granted_cases (h : QueueStep cfg s t log ts) (hu : u ∈ ts) (hg : u.granted) :
    t.granted ∨ s.usage.getUsageCount < cfg.requestLimit := by
  revert u
  cases h with
  | runs j hdue => simp [Task.granted]
  | checks dto =>
    intro u hu hg
    obtain rfl := List.mem_singleton.mp hu
    have hunlimited : s.isRateLimited cfg = false := AdmissionPhase.answered.inj hg
    exact .inr (Nat.lt_of_not_le (of_decide_eq_false hunlimited))
  | putsOff dto => simp [Task.granted]
  | passes dto => exact fun _ _ => .inl rfl
  | logs ht _ _ => exact fun _ _ => .inl (Task.granted_of_logs ht)
  | records dto usageId => exact fun _ _ => .inl trivial
  | serves hts =>
    intro u hu hg
    have hserving := hts u hu
    cases u <;> first | exact hg.elim | cases hserving

/-- Only recording a usage changes the log. -/
theorem QueueStep.log_cases (h : QueueStep cfg s t log ts) :
    log = s.usage ∨ t.granted ∧ ts = [] ∧
      ∃ usageId, log = s.usage.multiExec s.clock s.clock usageId := by
  cases h with
  | records dto usageId => exact .inr ⟨trivial, rfl, usageId, rfl⟩
  | _ => exact .inl rfl

theorem Task.not_claims_of_serving (h : u.serving = true) : u.claimsUsage = false := by
  cases u <;> first | rfl | cases h

theorem Task.claims_of_logs (h : u.logs = true) : u.claimsUsage = true := by
  cases u <;> first | rfl | cases h

/-- **No step makes two claims out of one**: a request that is checked is on the queue again
or to be logged, and one that is logged claims nothing any more. -/
theorem QueueStep.claims_le (h : QueueStep cfg s t log ts) (time : ℕ) :
    ts.countP Task.claimsUsage ≤ (if t.claimsUsage then 1 else 0) ∧
      ts.countP Task.claimsUsage + log.countSince time
        ≤ (if t.claimsUsage then 1 else 0) + s.usage.countSince time := by
  have hsame : ∀ {us : List Task}, us.countP Task.claimsUsage ≤ (if t.claimsUsage then 1 else 0) →
      us.countP Task.claimsUsage ≤ (if t.claimsUsage then 1 else 0) ∧
        us.countP Task.claimsUsage + s.usage.countSince time
          ≤ (if t.claimsUsage then 1 else 0) + s.usage.countSince time :=
    fun hle => ⟨hle, Nat.add_le_add_right hle _⟩
  cases h with
  | records dto usageId =>
    refine ⟨Nat.zero_le _, ?_⟩
    rw [List.countP_nil, Nat.zero_add, Nat.add_comm]
    exact s.usage.countSince_multiExec s.clock s.clock time usageId
  | serves hts =>
    refine hsame ?_
    rw [countP_eq_zero_of_forall fun u hu => Task.not_claims_of_serving (hts u hu)]
    exact Nat.zero_le _
  | logs ht hu _ =>
    refine hsame ?_
    simp [Task.claims_of_logs ht, Task.claims_of_logs hu]
  | _ => exact hsame (by simp [Task.claimsUsage])

end QueueStep

/-! ### Order -/

/-- What stems from the queue is in order: no job is late, and as long as a request has
passed that is not logged yet, the limit is not reached or the log is trimmed. -/
structure Orderly (cfg : Settings) (s : Sys) : Prop where
  fromQueue : ∀ t ∈ s.pool, t.FromQueue s.store.clock
  due : ∀ j, .job j ∈ s.pool → s.store.clock ≤ j.due
  granted : ∀ t ∈ s.pool, t.granted →
    s.store.usage.getUsageCount < cfg.requestLimit ∨ s.store.usage.Trimmed s.store.clock

section Order

variable {cfg : Settings} {s s' : Sys}

/-- At rest everything is. -/
theorem Resting.orderly (h : Resting s) : Orderly cfg s := by
  refine ⟨fun t ht => ?_, fun j hj => ?_, fun t ht hg => ?_⟩
  · obtain ⟨j, rfl, -⟩ := h t ht
    trivial
  · obtain ⟨j', hj', hlate⟩ := h _ hj
    cases hj'
    exact Nat.le_of_lt hlate
  · obtain ⟨j, rfl, -⟩ := h t ht
    exact hg.elim

/-- A step of the machine, seen from the queue: the tasks it finds, the others, and those
it leaves. -/
theorem Orderly.queueStep (h : Orderly cfg s) (hs : (system cfg).Moves s s') :
    ∃ t rest ts, t ∈ s.pool ∧ s.pool.Perm (t :: rest) ∧ s'.pool = rest ++ ts ∧
      (∀ u ∈ s'.pool, u ∈ s.pool ∨ u ∈ ts) ∧ s'.store.clock = s.store.clock ∧
      QueueStep cfg s.store t s'.store.usage ts := by
  obtain ⟨i, c, t, rest, ts, hr⟩ := hs.runs
  have hreacts := reacts_of_react hr.react
  exact ⟨t, rest, ts, hr.mem, hr.pool, hr.pool',
    fun u hu => (hr.mem_pool'.mp hu).imp_left hr.mem_of_rest, hreacts.clock_eq,
    hreacts.queueStep (h.fromQueue t hr.mem)⟩

theorem Orderly.move (h : Orderly cfg s) (hs : (system cfg).Moves s s') : Orderly cfg s' := by
  obtain ⟨t, rest, ts, ht, -, -, hmem, hclock, hstep⟩ := h.queueStep hs
  refine ⟨fun u hu => ?_, fun j hj => ?_, fun u hu hg => ?_⟩
  · rw [hclock]
    exact (hmem u hu).elim (h.fromQueue u) hstep.fromQueue
  · rw [hclock]
    rcases hmem _ hj with hj | hj
    · exact h.due j hj
    · rw [(hstep.job_cases hj).1]
      exact Nat.le_add_right _ _
  · rw [hclock]
    rcases hstep.log_cases with hlog | ⟨-, -, usageId, hlog⟩
    · rw [hlog]
      rcases hmem u hu with hu | hu
      · exact h.granted u hu hg
      · exact (hstep.granted_cases hu hg).elim (h.granted t ht) .inl
    · rw [hlog]
      exact .inr (UsageLog.trimmed_multiExec _ _ usageId)

theorem Orderly.tick {ms : ℕ} (hrest : Resting s)
    (hdue : ∀ j, .job j ∈ s.pool → s.store.clock + ms ≤ j.due)
    (hs : (system cfg).step s (.env (.tick ms)) = some s') : Orderly cfg s' := by
  obtain ⟨hpool, hclock, -⟩ := of_tick hs
  refine ⟨fun t ht => ?_, fun j hj => ?_, fun t ht hg => ?_⟩
  · obtain ⟨j, rfl, -⟩ := hrest t (hpool ▸ ht)
    trivial
  · rw [hclock]
    exact hdue j (hpool ▸ hj)
  · obtain ⟨j, rfl, -⟩ := hrest t (hpool ▸ ht)
    exact hg.elim

end Order

/-! ### The days after a rest -/

/-- The log is full.  Nobody is checked on the second day, as it lapses before any of those
put off is due; and a usage that is still to be recorded takes nothing out of it, and
delays it no further than that. -/
structure FullLog (cfg : Settings) (time : ℕ) (s : Sys) : Prop where
  full : cfg.requestLimit ≤ s.store.usage.getUsageCount
  busy : ∀ a, .processor a ∈ s.pool → s.store.clock ≤ time + windowInMilliseconds
  lapses : ∀ j, .job j ∈ s.pool → time + windowInMilliseconds < j.due →
    ∀ x, s.store.usage.expiresAt = some x → x ≤ j.due
  granted : ∀ t ∈ s.pool, t.granted → s.store.usage.Trimmed s.store.clock ∧
    ∀ j, .job j ∈ s.pool → time + windowInMilliseconds < j.due →
      s.store.clock + windowInMilliseconds ≤ j.due

/-- What the log holds in the days after a rest at the time `time`, and who is put off.
First nobody is.  Once somebody is, the log is full, and stays so, until it lapses before
any of those put off is due.  From then on it holds later usages only. -/
inductive LogStage (cfg : Settings) (time : ℕ) (s : Sys) : Prop
  | first (hclock : s.store.clock ≤ time + windowInMilliseconds)
      (hdue : ∀ j, .job j ∈ s.pool → j.due ≤ time + windowInMilliseconds)
      (hnone : ∀ a, .processor a ∈ s.pool → a.phase ≠ .answered true)
  | full (h : FullLog cfg time s)
  | later (hlater : ∀ e ∈ s.store.usage.entries, time < e.score)
  | done (hdone : s.pool = [])

section LogStage

variable {cfg : Settings} {time : ℕ} {s s' : Sys}

/-- The log is full when a request is put off for the first time. -/
theorem FullLog.of_putOff (hfull : cfg.requestLimit ≤ s.store.usage.getUsageCount)
    (ho : Orderly cfg s)
    (hclock : s.store.clock ≤ time + windowInMilliseconds)
    (hdue : ∀ j, .job j ∈ s.pool → j.due ≤ time + windowInMilliseconds) :
    FullLog cfg time s where
  full := hfull
  busy _ _ := hclock
  lapses j hj hlate := absurd (hdue j hj) (Nat.not_le_of_lt hlate)
  granted t ht hg := by
    refine ⟨(ho.granted t ht hg).resolve_left (Nat.not_lt_of_le hfull), fun j hj hlate => ?_⟩
    exact absurd (hdue j hj) (Nat.not_le_of_lt hlate)

/-- Nobody is checked late: a job that was put off is not due before the log has lapsed. -/
theorem FullLog.busy_of_move (hlimit : 0 < cfg.requestLimit) (h : FullLog cfg time s)
    (ho : Orderly cfg s) (hp : Punctual s) (hs : (system cfg).Moves s s') {a : Admission}
    (ha : .processor a ∈ s'.pool) : s'.store.clock ≤ time + windowInMilliseconds := by
  obtain ⟨t, -, ts, ht, -, -, hmem, hclock, hstep⟩ := ho.queueStep hs
  rw [hclock]
  rcases hmem _ ha with ha | ha
  · exact h.busy a ha
  · rcases (hstep.processor_cases ha).2 with ⟨j, rfl, hdue, -⟩ | ⟨dto, rfl, -⟩
    · by_contra hlate
      have hsame : j.due = s.store.clock := Nat.le_antisymm hdue (ho.due j ht)
      have hfull := h.full
      cases hexpires : s.store.usage.expiresAt with
      | none =>
        have hempty : s.store.usage.getUsageCount = 0 :=
          List.length_eq_zero_iff.mpr (hp.log.expired hexpires)
        omega
      | some x =>
        have hle := h.lapses j ht (by omega) x hexpires
        have hlt := (hp.log.expires x hexpires).1
        omega
    · exact h.busy _ ht

/-- **A step of the machine keeps the log full.** -/
theorem FullLog.move (hlimit : 0 < cfg.requestLimit) (h : FullLog cfg time s)
    (ho : Orderly cfg s) (hp : Punctual s) (hs : (system cfg).Moves s s') :
    FullLog cfg time s' := by
  have hbusy : ∀ a, .processor a ∈ s'.pool → s'.store.clock ≤ time + windowInMilliseconds :=
    fun _ => h.busy_of_move hlimit ho hp hs
  obtain ⟨t, -, ts, ht, -, -, hmem, hclock, hstep⟩ := ho.queueStep hs
  rcases hstep.log_cases with hlog | ⟨hg, rfl, usageId, hlog⟩
  · have hjobs : ∀ j, .job j ∈ ts → j.due = s.store.clock + windowInMilliseconds := fun j hj =>
      (hstep.job_cases hj).1
    refine ⟨hlog ▸ h.full, hbusy, ?_, ?_⟩
    · intro j hj hlate x hx
      rw [hlog] at hx
      rcases hmem _ hj with hj | hj
      · exact h.lapses j hj hlate x hx
      · rw [hjobs j hj]
        exact (hp.log.expires x hx).2
    · intro u hu hg
      obtain ⟨t', ht', hg'⟩ : ∃ t' ∈ s.pool, t'.granted := by
        rcases hmem u hu with hu | hu
        · exact ⟨u, hu, hg⟩
        · refine ⟨t, ht, (hstep.granted_cases hu hg).resolve_right ?_⟩
          exact Nat.not_lt_of_le h.full
      obtain ⟨htrimmed, hlater⟩ := h.granted t' ht' hg'
      rw [hlog, hclock]
      refine ⟨htrimmed, fun j hj hlate => ?_⟩
      rcases hmem _ hj with hj | hj
      · exact hlater j hj hlate
      · exact Nat.le_of_eq (hjobs j hj).symm
  · -- A usage is recorded of the very moment at which the others were put off.
    obtain ⟨htrimmed, hlater⟩ := h.granted t ht hg
    have hjobs : ∀ j, .job j ∈ s'.pool → time + windowInMilliseconds < j.due →
        s.store.clock + windowInMilliseconds ≤ j.due := by
      intro j hj
      rcases hmem _ hj with hj | hj
      · exact hlater j hj
      · cases hj
    refine ⟨?_, hbusy, ?_, ?_⟩
    · rw [hlog]
      exact h.full.trans (htrimmed.getUsageCount_le hp.log usageId)
    · intro j hj hlate x hx
      rw [hlog] at hx
      obtain rfl := Option.some.inj hx
      exact hjobs j hj hlate
    · intro u hu hg
      rw [hlog, hclock]
      exact ⟨UsageLog.trimmed_multiExec _ _ usageId, hjobs⟩

/-- **A step of the machine keeps the stage**, or takes it from the first to the second. -/
theorem LogStage.move (hlimit : 0 < cfg.requestLimit) (h : LogStage cfg time s)
    (ho : Orderly cfg s) (hp : Punctual s) (htime : time < s.store.clock)
    (hs : (system cfg).Moves s s') : LogStage cfg time s' := by
  obtain ⟨t, -, ts, ht, -, -, hmem, hclock, hstep⟩ := ho.queueStep hs
  cases h with
  | done hdone =>
    rw [hdone] at ht
    cases ht
  | full hfull => exact .full (hfull.move hlimit ho hp hs)
  | later hlater =>
    refine .later ?_
    rcases hstep.log_cases with hlog | ⟨-, -, usageId, hlog⟩
    · rw [hlog]
      exact hlater
    · rw [hlog]
      intro e he
      rcases UsageLog.mem_multiExec.mp he with ⟨he, -⟩ | rfl
      · exact hlater e he
      · exact htime
  | first hbefore hdue hnone =>
    have hbefore' : s'.store.clock ≤ time + windowInMilliseconds := hclock ▸ hbefore
    have hdue' : ∀ j, .job j ∈ s'.pool → j.due ≤ time + windowInMilliseconds := by
      intro j hj
      rcases hmem _ hj with hj | hj
      · exact hdue j hj
      · exact absurd rfl (hnone _ ((hstep.job_cases hj).2.2 ▸ ht))
    by_cases hput : ∃ a, .processor a ∈ s'.pool ∧ a.phase = .answered true
    · obtain ⟨a, ha, hphase⟩ := hput
      obtain ⟨hlog, hcases⟩ := hstep.processor_cases
        ((hmem _ ha).resolve_left fun hold => hnone a hold hphase)
      have hlimited : s.store.isRateLimited cfg = true := by
        rcases hcases with ⟨j, -, -, hread⟩ | ⟨dto, -, hanswer⟩
        · rw [hphase] at hread
          cases hread
        · exact (AdmissionPhase.answered.inj (hphase.symm.trans hanswer)).symm
      have hfull : cfg.requestLimit ≤ s'.store.usage.getUsageCount := by
        rw [hlog]
        exact of_decide_eq_true hlimited
      exact .full (.of_putOff hfull (ho.move hs) hbefore' hdue')
    · exact .first hbefore' hdue' fun a ha hphase => hput ⟨a, ha, hphase⟩

/-- **So does the passing of time**, but that the log may lapse and the queue may be empty. -/
theorem LogStage.tick {ms : ℕ} (h : LogStage cfg time s) (hrest : Resting s)
    (hdue : ∀ j, .job j ∈ s.pool → s.store.clock + ms ≤ j.due)
    (hs : (system cfg).step s (.env (.tick ms)) = some s') : LogStage cfg time s' := by
  obtain ⟨hpool, hclock, husage⟩ := of_tick hs
  have hjob : ∀ t ∈ s'.pool, ∃ j, t = .job j := by
    intro t ht
    obtain ⟨j, rfl, -⟩ := hrest t (hpool ▸ ht)
    exact ⟨j, rfl⟩
  have hnone : ∀ a, .processor a ∉ s'.pool := by
    intro a ha
    obtain ⟨j, hj⟩ := hjob _ ha
    cases hj
  cases h with
  | done hdone => exact .done (hpool.trans hdone)
  | later hlater =>
    refine .later ?_
    rw [husage]
    rcases s.store.usage.lapse_cases (s.store.clock + ms) with ⟨hsame, -⟩ | ⟨hempty, -⟩
    · rw [hsame]
      exact hlater
    · rw [hempty]
      exact fun e he => nomatch he
  | first hbefore hdue' _ =>
    cases hqueue : s.pool with
    | nil => exact .done (hpool.trans hqueue)
    | cons t pool =>
      -- A job is left, so it is not later than that.
      have ht : t ∈ s.pool := hqueue ▸ List.mem_cons_self
      obtain ⟨j, rfl, -⟩ := hrest t ht
      refine .first ?_ (hpool ▸ hdue') fun a ha => absurd ha (hnone a)
      rw [hclock]
      exact (hdue j ht).trans (hdue' j ht)
  | full h =>
    rcases s.store.usage.lapse_cases (s.store.clock + ms) with ⟨hsame, -⟩ | ⟨hempty, -⟩
    · rw [hsame] at husage
      refine .full ⟨husage ▸ h.full, fun a ha => absurd ha (hnone a), ?_, ?_⟩
      · rw [husage, hpool]
        exact h.lapses
      · intro t ht hg
        obtain ⟨j, rfl⟩ := hjob t ht
        exact hg.elim
    · refine .later ?_
      rw [husage, hempty]
      exact fun e he => nomatch he

end LogStage

/-- The request is put off for the second time, if not more often: on the second day after
the rest. -/
def Task.PutOffLate (time clock : ℕ) : Task → Prop
  | .job j => time + 2 * windowInMilliseconds < j.due
  | .processor a => a.phase = .answered true ∧ time + windowInMilliseconds < clock
  | _ => False

/-- The days after a rest at the time `time` with a backlog of `n` requests.  No request
claims two usages; and when one is put off on the second day, as many have got through as
the limit allows. -/
structure Period (cfg : Settings) (n time : ℕ) (s : Sys) : Prop where
  started : time < s.store.clock ∨ Resting s
  claims : s.pool.countP Task.claimsUsage + s.store.usage.countSince time ≤ n
  stage : 0 < cfg.requestLimit → LogStage cfg time s
  putOff : ∀ t ∈ s.pool, t.PutOffLate time s.store.clock →
    s.pool.countP Task.claimsUsage + cfg.requestLimit ≤ n

section Period

variable {cfg : Settings} {n time : ℕ} {s s' : Sys}

/-- It begins with the rest. -/
theorem Period.of_resting (hrest : Resting s) (hp : Punctual s) :
    Period cfg s.pool.length s.store.clock s := by
  have hdue : ∀ j, .job j ∈ s.pool → j.due ≤ s.store.clock + windowInMilliseconds := fun j hj =>
    hp.tasks _ hj
  refine ⟨.inr hrest, ?_, fun _ => .first (Nat.le_add_right _ _) hdue fun a ha => ?_,
    fun t ht hlate => ?_⟩
  · rw [hp.log.countSince_eq_zero]
    exact List.countP_le_length
  · obtain ⟨j, hj, -⟩ := hrest _ ha
    cases hj
  · obtain ⟨j, rfl, -⟩ := hrest t ht
    have hle := hdue j ht
    have hlt : s.store.clock + 2 * windowInMilliseconds < j.due := hlate
    omega

/-- Whoever is put off late finds as many requests in the log as the limit allows, all of
which have got through since the rest. -/
theorem LogStage.full_of_late (h : LogStage cfg time s) {a : Admission} (ha : .processor a ∈ s.pool)
    (hlate : time + windowInMilliseconds < s.store.clock)
    (hfull : cfg.requestLimit ≤ s.store.usage.getUsageCount) :
    cfg.requestLimit ≤ s.store.usage.countSince time := by
  cases h with
  | first hbefore => exact absurd hbefore (Nat.not_le_of_lt hlate)
  | full h => exact absurd (h.busy a ha) (Nat.not_le_of_lt hlate)
  | later hlater =>
    rw [UsageLog.countSince_eq hlater]
    exact hfull
  | done hdone =>
    rw [hdone] at ha
    cases ha

/-- **A step of the machine keeps count.** -/
theorem Period.move (h : Period cfg n time s) (ho : Orderly cfg s) (hp : Punctual s)
    (hs : (system cfg).Moves s s') : Period cfg n time s' := by
  have hstarted : time < s.store.clock :=
    h.started.resolve_right fun hrest => (resting_iff cfg s).mp hrest s' hs
  obtain ⟨t, rest, ts, ht, hpool, hpool', hmem, hclock, hstep⟩ := ho.queueStep hs
  obtain ⟨hclaims, hcounts⟩ := hstep.claims_le time
  have hbefore : s.pool.countP Task.claimsUsage
      = (if t.claimsUsage then 1 else 0) + rest.countP Task.claimsUsage := by
    rw [hpool.countP_eq, List.countP_cons, Nat.add_comm]
  have hafter : s'.pool.countP Task.claimsUsage
      = rest.countP Task.claimsUsage + ts.countP Task.claimsUsage := by
    rw [hpool', List.countP_append]
  have hall := h.claims
  refine ⟨.inl (hclock ▸ hstarted), by omega,
    fun hlimit => (h.stage hlimit).move hlimit ho hp hstarted hs, ?_⟩
  -- What counts as late was late before, or the limit has been reached.
  have hlate : ∀ u ∈ s.pool, u.PutOffLate time s.store.clock →
      s'.pool.countP Task.claimsUsage + cfg.requestLimit ≤ n := by
    intro u hu hput
    have hle := h.putOff u hu hput
    omega
  intro u hu hput
  rw [hclock] at hput
  rcases hmem u hu with hu | hu
  · exact hlate u hu hput
  · cases u with
    | job j =>
      obtain ⟨hdue, -, rfl⟩ := hstep.job_cases hu
      refine hlate _ ht ⟨rfl, ?_⟩
      have hlt : time + 2 * windowInMilliseconds < j.due := hput
      omega
    | processor a =>
      obtain ⟨hphase, hsecond⟩ := hput
      obtain ⟨-, hcases⟩ := hstep.processor_cases hu
      rcases hcases with ⟨j, -, -, hread⟩ | ⟨dto, rfl, hanswer⟩
      · rw [hphase] at hread
        cases hread
      · have hlimited := AdmissionPhase.answered.inj (hphase.symm.trans hanswer)
        have hfull : cfg.requestLimit ≤ s.store.usage.getUsageCount :=
          of_decide_eq_true hlimited.symm
        rcases Nat.eq_zero_or_pos cfg.requestLimit with hzero | hlimit
        · omega
        · have hmany := (h.stage hlimit).full_of_late ht hsecond hfull
          omega
    | _ => exact hput.elim

/-- **So does the passing of time.** -/
theorem Period.tick {ms : ℕ} (h : Period cfg n time s) (htime : time ≤ s.store.clock)
    (hrest : Resting s) (hdue : ∀ j, .job j ∈ s.pool → s.store.clock + ms ≤ j.due)
    (hs : (system cfg).step s (.env (.tick ms)) = some s') : Period cfg n time s' := by
  obtain ⟨hpool, hclock, husage⟩ := of_tick hs
  refine ⟨?_, ?_, fun hlimit => (h.stage hlimit).tick hrest hdue hs, fun t ht hput => ?_⟩
  · rcases Nat.eq_zero_or_pos ms with rfl | hpos
    · refine .inr fun t ht => ?_
      obtain ⟨j, rfl, hlate⟩ := hrest t (hpool ▸ ht)
      exact ⟨j, rfl, by omega⟩
    · exact .inl (by omega)
  · have hall := h.claims
    rw [hpool, husage]
    rcases s.store.usage.lapse_cases (s.store.clock + ms) with ⟨hsame, -⟩ | ⟨hempty, -⟩
    · rw [hsame]
      exact hall
    · rw [hempty]
      exact (Nat.le_add_right _ _).trans hall
  · rw [hpool]
    have ht' : t ∈ s.pool := hpool ▸ ht
    obtain ⟨j, rfl, -⟩ := hrest t ht'
    exact h.putOff (.job j) ht' hput

/-- A prompt run keeps order, and count. -/
theorem Prompt.period (h : Prompt cfg s s') (hrest : Resting s) (hp : Punctual s) :
    Orderly cfg s' ∧ s.store.clock ≤ s'.store.clock ∧
      Period cfg s.pool.length s.store.clock s' := by
  induction h with
  | refl => exact ⟨hrest.orderly, Nat.le_refl _, .of_resting hrest hp⟩
  | tail hrun hstep ih =>
    obtain ⟨ho, hclock, hperiod⟩ := ih
    cases hstep with
    | move hmove =>
      refine ⟨ho.move hmove, ?_, hperiod.move ho (Prompt.punctual hrun hp) hmove⟩
      rw [clock_of_moves hmove]
      exact hclock
    | tick ms hrest' hdue htick =>
      refine ⟨Orderly.tick hrest' hdue htick, ?_, hperiod.tick hclock hrest' hdue htick⟩
      rw [(of_tick htick).2.1]
      exact Nat.le_add_right_of_le hclock

end Period

/-- A query for two paths with a limit of one: the first passes and is logged, the second
is put off. -/
def onePutOff : List (Act Choice EnvAct) :=
  [.env (.create ⟨["people/1", "planets/1"], none⟩ [⟨0⟩, ⟨1⟩] ⟨2⟩), .run 0 (.read 0),
    .run 0 (.read 1), .run 0 .proceed, .run 0 .proceed, .run 0 .proceed, .run 0 .proceed,
    .run 0 .proceed, .run 0 .proceed, .run 1 .proceed, .run 2 .proceed, .run 2 (.draw ⟨3⟩),
    .run 2 .proceed, .run 0 .proceed, .run 1 .proceed, .run 0 .proceed, .run 1 .fail]

end SwapiService
