import SwapiService.Calls
import SwapiService.Lib.Settling
import SwapiService.LostWork

/-!
# Coming to rest

Left alone, the system comes to rest: no event is passed around forever, and nothing
waits for what never happens.  What is left then are the requests put on the queue,
none of which may run yet.

## Main definitions

* `Task.rank` — how much a task has left to do.
* `Resting` — all that is left is on the queue, and must wait.

## Main results

* `rank_lt_of_react` — every reaction turns a task into lesser ones.
* `exists_react` — nothing but a job that must wait is stuck, even if no call fails.
* `system_settles` — the system comes to rest, and only there it stops.
-/

namespace SwapiService

open TaskPool Transition

/-! ### Ranks -/

/-- How much a task has left to do at time `clock`.  The reads of the query manager are
counted apart, since there are as many as the query has subqueries. -/
def Task.rank (clock : ℕ) : Task → ℕ × ℕ
  | .creation t => (20 + t.rank.1, t.rank.2)
  | .scheduleFetch _ => (19, 0)
  | .scheduler ⟨_, .readUsage⟩ => (18, 0)
  | .scheduler ⟨_, .answered _⟩ => (17, 0)
  | .job j => if j.due ≤ clock then (16, 0) else (0, 0)
  | .processor ⟨_, .readUsage⟩ => (15, 0)
  | .processor ⟨_, .answered _⟩ => (14, 0)
  | .fetchToConnector _ => (13, 0)
  | .fetchToTraffic _ => (13, 0)
  | .usageLogger _ .getUsageCount => (12, 0)
  | .usageLogger _ (.multiExec _ _) => (11, 0)
  | .connector ⟨_, .readCache⟩ => (12, 0)
  | .connector ⟨_, .get⟩ => (11, 0)
  | .receiveToQueryManager _ => (10, 0)
  | .receiveToCacheManager _ => (10, 0)
  | .handler t => (ResultTask.handler t).rank
  | .updater u => (ResultTask.updater u).rank

/-- A task with less to do. -/
abbrev Lesser : ℕ × ℕ → ℕ × ℕ → Prop := Prod.Lex (· < ·) (· < ·)

theorem Lesser.of_lt {a b : ℕ × ℕ} (h : a.1 < b.1) : Lesser a b := Prod.lex_def.mpr (.inl h)

theorem Lesser.of_rank {clock a b x y : ℕ} {t u : Task} (hu : u.rank clock = (a, x))
    (ht : t.rank clock = (b, y)) (h : a < b) : Lesser (u.rank clock) (t.rank clock) := by
  rw [hu, ht]
  exact .of_lt h

theorem Lesser.add_left (n : ℕ) {a b : ℕ × ℕ} (h : Lesser a b) :
    Lesser (n + a.1, a.2) (n + b.1, b.2) := by
  rw [Lesser, Prod.lex_def] at h ⊢
  omega

section Reactions

variable {cfg : Settings} {s s' : Store} {t : Task} {c : Choice} {ts : List Task}

/-- No reaction takes time. -/
theorem Reacts.clock_eq (h : Reacts cfg s t c s' ts) : s'.clock = s.clock := by
  cases h <;> rfl

/-- A job runs when it is due. -/
theorem Reacts.due_of_job {j : Job} (h : Reacts cfg s (.job j) c s' ts) : j.due ≤ s.clock := by
  cases h with
  | job _ hdue => exact hdue

/-- An admission turns into what ranks below it: a job it puts on the queue must wait. -/
theorem Admission.Fires.rank_lt {onError out : Outcome Admission} {isRateLimited : Bool}
    {dto : SubqueryDto} {phase : AdmissionPhase} {effect : AdmissionEffect} {clock n : ℕ}
    {wrap : Admission → Task} (h : Fires onError isRateLimited dto phase c effect out)
    (he : onError.tasks wrap = []) (hn : 13 < n)
    (hanswered : ∀ b, (wrap ⟨dto, .answered b⟩).rank clock = (n, 0))
    (hread : (wrap ⟨dto, .readUsage⟩).rank clock = (n + 1, 0)) :
    ∀ u ∈ effect.tasks clock ++ out.tasks wrap,
      Lesser (u.rank clock) ((wrap ⟨dto, phase⟩).rank clock) := by
  intro u hu
  cases h with
  | fails =>
    simp only [AdmissionEffect.tasks, he, List.append_nil, List.not_mem_nil] at hu
  | answers =>
    obtain rfl := List.mem_singleton.mp hu
    rw [hanswered, hread]
    exact .of_lt (Nat.lt_succ_self n)
  | queues =>
    obtain rfl := List.mem_singleton.mp hu
    have hlater : ¬ clock + requestDelay ≤ clock := by
      rw [requestDelay]
      omega
    rw [hanswered, Task.rank, if_neg hlater]
    exact .of_lt (by omega)
  | emits =>
    rw [hanswered]
    rcases List.mem_cons.mp hu with rfl | hu
    · exact .of_lt hn
    · obtain rfl := List.mem_singleton.mp hu
      exact .of_lt hn

/-- **Every reaction turns a task into lesser ones.** -/
theorem rank_lt_of_react (hreact : react cfg s t c = some (s', ts)) :
    ∀ u ∈ ts, Lesser (u.rank s.clock) (t.rank s.clock) := by
  cases reacts_of_react hreact with
  | @creation t c e h =>
    refine Effect.forall_tasks (fun p _ => .of_lt ?_) fun t' ht' => ?_
    · show 19 < 20 + t.rank.1
      omega
    · exact Lesser.add_left 20 (Creation.rank_lt_of_fires h ht')
  | scheduleFetch payload =>
    exact SubqueryPayload.forall_tasks fun dto => .of_rank rfl rfl (by decide)
  | scheduler h => exact h.rank_lt rfl (n := 17) (by decide) (fun _ => rfl) rfl
  | processor h => exact h.rank_lt rfl (n := 14) (by decide) (fun _ => rfl) rfl
  | job j hdue =>
    intro u hu
    obtain rfl := List.mem_singleton.mp hu
    exact .of_rank rfl (if_pos hdue) (by decide)
  | usageLogger hfresh h =>
    refine Outcome.forall_tasks fun u' hu' => ?_
    cases h with
    | reads usageId => cases hu'; exact .of_rank rfl rfl (by decide)
    | fails => cases hu'
    | records => cases hu'
  | @connector f c effect out h =>
    obtain ⟨dto, phase⟩ := f
    cases h with
    | miss hmiss =>
      intro u hu
      obtain rfl := List.mem_singleton.mp hu
      exact .of_rank rfl rfl (by decide)
    | fetched data =>
      intro u hu
      have hu' : u ∈ receiveMessages { dto with result := data } := by simpa using hu
      rcases List.mem_cons.mp hu' with rfl | hu'
      · exact .of_rank rfl rfl (by decide)
      · obtain rfl := List.mem_singleton.mp hu'
        exact .of_rank rfl rfl (by decide)
    | _ => simp
  | refusedToQueryManager => simp
  | refusedToCacheManager => simp
  | receiveToCacheManager =>
    refine Outcome.forall_tasks fun u hu => ?_
    obtain ⟨dto', phase⟩ := u
    cases phase <;> exact .of_rank rfl rfl (by decide)
  | @handler t c e h =>
    obtain ⟨e', he', heq⟩ := Option.map_eq_some_iff.mp hreact
    have htasks : e'.tasks .handler = e.tasks .handler := congrArg Prod.snd heq
    rw [← htasks]
    refine Effect.forall_tasks (fun p hp => ?_) fun t' ht' => Handler.rank_lt_of_step he' ht'
    rw [Handler.emitted_of_fires (Handler.fires_of_step he')] at hp
    cases hp
  | @updater u c cache out h =>
    obtain ⟨r, hr, heq⟩ := Option.map_eq_some_iff.mp hreact
    have htasks : r.2.tasks Task.updater = out.tasks Task.updater := congrArg Prod.snd heq
    rw [← htasks]
    refine Outcome.forall_tasks fun u' hu' => ?_
    have hstep : u.step s.cache c = some (r.1, .suspended u') := by rw [hr, ← hu']
    exact CacheUpdate.rank_lt_of_step hstep
  | _ =>
    intro u hu
    obtain rfl := List.mem_singleton.mp hu
    exact .of_rank rfl rfl (by decide)

end Reactions

/-- The ranking of the system. -/
theorem ranking_system (cfg : Settings) :
    Ranking (system cfg) Lesser fun s t => t.rank s.clock where
  lesser hreact u hu := by
    rw [(reacts_of_react hreact).clock_eq]
    exact rank_lt_of_react hreact u hu
  stable hreact u := by rw [(reacts_of_react hreact).clock_eq]

/-! ### Progress -/

/-- There is always another UUID. -/
theorem exists_notMem_drawn (drawn : List Uuid) : ∃ id, id ∉ drawn := by
  have hinfinite : Infinite Uuid := .of_injective Uuid.mk fun _ _ h => Uuid.mk.inj h
  obtain ⟨id, hid⟩ := Infinite.exists_notMem_finset drawn.toFinset
  exact ⟨id, fun hmem => hid (List.mem_toFinset.mpr hmem)⟩

/-- The call succeeds, and a body is of the right kind. -/
def Choice.isSound (good : Json → Bool) : Choice → Bool
  | .fail => false
  | .body data => good data
  | _ => true

theorem Choice.isSound_of_ne {good : Json → Bool} {c : Choice} (hfail : c ≠ .fail)
    (hbody : ∀ data, c ≠ .body data) : c.isSound good = true := by
  cases c with
  | fail => exact absurd rfl hfail
  | body data => exact absurd rfl (hbody data)
  | _ => rfl

theorem faultless_run (i : ℕ) {c : Choice} (h : c.isSound Json.truthy = true) :
    faultless (.run i c) = true := by
  cases c with
  | fail => cases h
  | body data => exact h
  | _ => rfl

section Sound

variable {good : Json → Bool} {body : Json} (hbody : good body = true)

include hbody

/-- **Nothing but a job that must wait is stuck**, even if there are no faults. -/
theorem exists_react (cfg : Settings) (s : Store) (t : Task)
    (hdue : ∀ j, t = .job j → j.due ≤ s.clock) :
    ∃ c s' ts, c.isSound good = true ∧ react cfg s t c = some (s', ts) := by
  cases t with
  | creation t =>
    obtain ⟨c, e, hc, he⟩ := Creation.exists_step s.db s.cache t
    refine ⟨c, _, _, Choice.isSound_of_ne hc ?_, by rw [react, he, Option.map_some]⟩
    rintro data rfl
    cases he
  | handler t =>
    obtain ⟨c, e, hc, he⟩ := Handler.exists_step s.db s.cache t
    refine ⟨c, _, _, Choice.isSound_of_ne hc ?_, by rw [react, he, Option.map_some]⟩
    rintro data rfl
    cases he
  | updater u =>
    obtain ⟨c, r, hc, hr⟩ := CacheUpdate.exists_step s.cache u
    refine ⟨c, _, _, Choice.isSound_of_ne hc ?_, by rw [react, hr, Option.map_some]⟩
    rintro data rfl
    cases hr
  | job j => exact ⟨.proceed, _, _, rfl, if_pos (hdue j rfl)⟩
  | scheduler a =>
    obtain ⟨dto, _ | _ | _⟩ := a <;> exact ⟨.proceed, _, _, rfl, rfl⟩
  | processor a =>
    obtain ⟨dto, _ | _ | _⟩ := a <;> exact ⟨.proceed, _, _, rfl, rfl⟩
  | usageLogger dto u =>
    cases u with
    | getUsageCount =>
      obtain ⟨id, hid⟩ := exists_notMem_drawn s.drawn
      have hfresh : s.fresh (.draw id) = true := decide_eq_true hid
      exact ⟨.draw id, _, _, rfl, by rw [react, if_pos hfresh]; rfl⟩
    | multiExec now usageId => exact ⟨.proceed, _, _, rfl, rfl⟩
  | connector f =>
    obtain ⟨dto, phase⟩ := f
    cases phase with
    | readCache =>
      by_cases hhit : (readCacheAsync s.cache dto).result.orNull.truthy = true
      · exact ⟨.proceed, _, _, rfl, by simp only [react, fetchDataStep, if_pos hhit]; rfl⟩
      · exact ⟨.proceed, _, _, rfl, by simp only [react, fetchDataStep, if_neg hhit]; rfl⟩
    | get => exact ⟨.body body, _, _, hbody, rfl⟩
  | _ => exact ⟨.proceed, _, _, rfl, rfl⟩

/-- Without faults there is a way on to rest. -/
theorem strategy_rest (cfg : Settings) (clock : ℕ) :
    Strategy (system cfg) (fun c => c.isSound good = true) (fun s => s.clock = clock)
      (fun _ => True) fun t => ∃ j, t = .job j ∧ clock < j.due where
  advance := by
    rintro s t rfl - hopen
    have hdue : ∀ j, t = .job j → j.due ≤ s.clock := by
      rintro j rfl
      by_contra hlate
      exact hopen ⟨j, rfl, not_le.mp hlate⟩
    obtain ⟨c, s', ts, hc, hreact⟩ := exists_react hbody cfg s t hdue
    exact ⟨c, s', ts, hc, hreact, (reacts_of_react hreact).clock_eq, fun _ _ => trivial⟩

end Sound

/-! ### Rest -/

/-- All that is left is on the queue, and must wait. -/
def Resting (s : Sys) : Prop := ∀ t ∈ s.pool, ∃ j, t = .job j ∧ s.store.clock < j.due

/-- At rest nothing moves, and nowhere else. -/
theorem resting_iff (cfg : Settings) (s : Sys) :
    Resting s ↔ ∀ s', ¬ (system cfg).Moves s s' := by
  constructor
  · intro hrest s' hmove
    obtain ⟨i, c, t, rest, ts, hr⟩ := hmove.runs
    obtain ⟨j, rfl, hlate⟩ := hrest t hr.mem
    have hdue : j.due ≤ s.store.clock := (reacts_of_react hr.react).due_of_job
    omega
  · intro hstuck t ht
    by_contra hno
    have hdue : ∀ j, t = .job j → j.due ≤ s.store.clock := by
      rintro j rfl
      by_contra hlate
      exact hno ⟨j, rfl, not_le.mp hlate⟩
    obtain ⟨c, store, ts, -, hreact⟩ :=
      exists_react (show Json.truthy (.bool true) = true from rfl) cfg s.store t hdue
    obtain ⟨i, hi⟩ := List.mem_iff_getElem?.mp ht
    exact hstuck _ ⟨i, c, Machine.step_run hi hreact⟩

/-- **From every state rest can be reached without a fault**, nothing coming from outside,
and every body being one of those that are good. -/
theorem exists_rest {good : Json → Bool} {body : Json} (hbody : good body = true)
    (cfg : Settings) (s : Sys) :
    ∃ tr s', Run (system cfg).step s tr s' ∧
      (∀ p ∈ tr, ∃ i c, p.2 = .run i c ∧ c.isSound good = true) ∧
      s'.store.clock = s.store.clock ∧ Resting s' := by
  obtain ⟨tr, s', hrun, hmoves, hclock, hend⟩ :=
    (strategy_rest hbody cfg s.store.clock).exists_run (ranking_system cfg) wellFounded_rank rfl
      fun _ _ => trivial
  refine ⟨tr, s', hrun, hmoves, hclock, fun t ht => ?_⟩
  rw [hclock]
  exact (hend t ht).2

/-- **The system comes to rest.**  From no state is there an infinite run in which
nothing comes from outside, whatever fails and in whichever order things happen; such a
run can go on just as long as the system is not at rest; and from every state rest can be
reached without a fault, where a save that the database refuses because of its text is no
fault. -/
theorem system_settles (cfg : Settings) :
    (WellFounded fun s' s => (system cfg).Moves s s') ∧
      (∀ s, Resting s ↔ ∀ s', ¬ (system cfg).Moves s s') ∧
      ∀ s : Sys, ∃ tr s', Run (system cfg).step s tr s' ∧
        (∀ p ∈ tr, (∃ i c, p.2 = .run i c) ∧ faultless p.2 = true) ∧ Resting s' := by
  refine ⟨(ranking_system cfg).wellFounded_moves wellFounded_rank, resting_iff cfg, fun s => ?_⟩
  obtain ⟨tr, s', hrun, hmoves, -, hrest⟩ :=
    exists_rest (show Json.truthy (.bool true) = true from rfl) cfg s
  refine ⟨tr, s', hrun, fun p hp => ?_, hrest⟩
  obtain ⟨i, c, hp', hc⟩ := hmoves p hp
  exact ⟨⟨i, c, hp'⟩, hp' ▸ faultless_run i hc⟩

end SwapiService
