import SwapiService.Webhook

/-!
# The two admission paths on their own

The request scheduler with its queue, and the traffic controller, fed with any
`SCHEDULE_FETCH` events.  What the traffic controller may reply is a parameter: by its
log, or anything at all.

A request is either emitted, or held by the queue, or an awaited call has failed while
it was being checked.  Then it is gone: in the one path the promise is rejected and
nobody waits for it, in the other the error is logged and the job counts as done.

## Main definitions

* `AdmissionTask`, `AdmissionStore`, `admissionControl` — the machine.
* `queued` — the requests held by the queue.
* `fails` — an awaited call of an admission fails.

## Main results

* `admission_step_cases` — what a step can do.
* `requests_step`, `requests_of_run` — where the requests are.
* `no_request_lost_iff` — the exact condition.
* `request_lost` — a job whose check fails once.
-/

namespace SwapiService

open TaskPool Transition

/-! ### The machine -/

/-- An activation of either path, a job, or the recording of a usage. -/
inductive AdmissionTask
  | scheduler (a : Admission)
  | job (j : Job)
  | processor (a : Admission)
  | fetchToTraffic (dto : SubqueryDto)
  | usageLogger (u : UsageLogging)
  deriving DecidableEq, Repr

/-- A `FETCH` event that was emitted, and when. -/
structure Emission where
  time : ℕ
  dto : SubqueryDto
  deriving DecidableEq, Repr

/-- The usage log, the clock, the UUIDs drawn, and records of the requests received and
of the `FETCH` events emitted. -/
structure AdmissionStore where
  usage : UsageLog
  clock : ℕ
  drawn : List Uuid
  received : List SubqueryDto
  emitted : List Emission

/-- A reply of the traffic controller, and what else happens to the awaited call. -/
structure Reply where
  isRateLimited : Bool
  choice : Choice
  deriving DecidableEq, Repr

/-- A `SCHEDULE_FETCH` event is delivered; time passes. -/
inductive AdmissionAct
  | deliver (payload : SubqueryPayload)
  | tick (ms : ℕ)
  deriving DecidableEq, Repr

/-- What an admission puts into the pool. -/
def AdmissionEffect.jobs (clock : ℕ) : AdmissionEffect → List AdmissionTask
  | .none => []
  | .emitFetch dto => [.fetchToTraffic dto]
  | .addJob dto delay => [.job ⟨dto, clock + delay⟩]

/-- The `FETCH` events of an admission. -/
def AdmissionEffect.emissions (clock : ℕ) : AdmissionEffect → List Emission
  | .emitFetch dto => [⟨clock, dto⟩]
  | _ => []

/-- What an admission does to the store and to the pool. -/
def AdmissionStore.perform (s : AdmissionStore) (wrap : Admission → AdmissionTask)
    (r : AdmissionEffect × Outcome Admission) : AdmissionStore × List AdmissionTask :=
  ({ s with emitted := s.emitted ++ r.1.emissions s.clock }, r.1.jobs s.clock ++ r.2.tasks wrap)

/-- The UUIDs drawn after a choice. -/
def AdmissionStore.draws (s : AdmissionStore) : Choice → Option (List Uuid)
  | .draw id => if id ∈ s.drawn then none else some (id :: s.drawn)
  | _ => some s.drawn

/-- How a task reacts, where `allowed` says what the traffic controller may reply. -/
def admissionReact (allowed : UsageLog → Bool → Bool) (s : AdmissionStore) :
    AdmissionTask → Reply → Option (AdmissionStore × List AdmissionTask)
  | .scheduler a, r =>
      if allowed s.usage r.isRateLimited then
        (scheduleRequestAsync r.isRateLimited a r.choice).map (s.perform .scheduler)
      else none
  | .processor a, r =>
      if allowed s.usage r.isRateLimited then
        (process r.isRateLimited a r.choice).map (s.perform .processor)
      else none
  | .job j, ⟨_, .proceed⟩ =>
      if j.due ≤ s.clock then some (s, [.processor ⟨j.data, .readUsage⟩]) else none
  | .fetchToTraffic _, ⟨_, .proceed⟩ => some (s, [.usageLogger .getUsageCount])
  | .usageLogger u, r => (s.draws r.choice).bind fun drawn =>
      (logUsageStep s.clock s.usage u r.choice).map fun l =>
        ({ s with usage := l.1, drawn }, l.2.tasks .usageLogger)
  | _, _ => none

/-- How the environment acts.  An event that fails its validation is dropped. -/
def admissionEnv (s : AdmissionStore) :
    AdmissionAct → Option (AdmissionStore × List AdmissionTask)
  | .deliver payload => some ({ s with received := s.received ++ payload.validate.toList },
      payload.validate.toList.map fun dto => .scheduler ⟨dto, .readUsage⟩)
  | .tick ms =>
      some ({ s with clock := s.clock + ms, usage := s.usage.lapse (s.clock + ms) }, [])

/-- The admission paths and the traffic controller. -/
def admissionControl (allowed : UsageLog → Bool → Bool) :
    Machine AdmissionStore AdmissionTask Reply AdmissionAct :=
  ⟨admissionReact allowed, admissionEnv⟩

/-- Nothing received, nothing logged. -/
def noRequests : Config AdmissionStore AdmissionTask := ⟨⟨.empty, 0, [], [], []⟩, []⟩

/-- The reactions of the tasks, case by case.  The two paths differ in nothing but
`onError`, in which no activation remains. -/
inductive AdmissionReacts (allowed : UsageLog → Bool → Bool) (s : AdmissionStore) :
    AdmissionTask → Reply → AdmissionStore → List AdmissionTask → Prop
  | admission {wrap : Admission → AdmissionTask} {onError : Outcome Admission} {a : Admission}
      {r : Reply} {effect : AdmissionEffect} {out : Outcome Admission}
      (hwrap : wrap = .scheduler ∨ wrap = .processor)
      (hreply : allowed s.usage r.isRateLimited = true)
      (herror : onError.tasks wrap = [])
      (h : Admission.Fires onError r.isRateLimited a.dto a.phase r.choice effect out) :
      AdmissionReacts allowed s (wrap a) r (s.perform wrap (effect, out)).1
        (s.perform wrap (effect, out)).2
  | job {j : Job} {b : Bool} (h : j.due ≤ s.clock) :
      AdmissionReacts allowed s (.job j) ⟨b, .proceed⟩ s [.processor ⟨j.data, .readUsage⟩]
  | fetchToTraffic {dto : SubqueryDto} {b : Bool} :
      AdmissionReacts allowed s (.fetchToTraffic dto) ⟨b, .proceed⟩ s [.usageLogger .getUsageCount]
  | usageLogger {u : UsageLogging} {r : Reply} {log : UsageLog} {drawn : List Uuid}
      {out : Outcome UsageLogging} (hdrawn : s.draws r.choice = some drawn)
      (h : UsageLogging.Fires s.clock s.usage u r.choice log out) :
      AdmissionReacts allowed s (.usageLogger u) r { s with usage := log, drawn }
        (out.tasks .usageLogger)

theorem admissionReacts_of_react {allowed : UsageLog → Bool → Bool} {s s' : AdmissionStore}
    {t : AdmissionTask} {r : Reply} {ts : List AdmissionTask}
    (h : admissionReact allowed s t r = some (s', ts)) : AdmissionReacts allowed s t r s' ts := by
  cases t with
  | scheduler a =>
    simp only [admissionReact] at h
    split_ifs at h with hreply
    obtain ⟨⟨effect, out⟩, he, h⟩ := Option.map_eq_some_iff.mp h
    cases h
    exact .admission (.inl rfl) hreply rfl (fires_of_admissionStep he)
  | processor a =>
    simp only [admissionReact] at h
    split_ifs at h with hreply
    obtain ⟨⟨effect, out⟩, he, h⟩ := Option.map_eq_some_iff.mp h
    cases h
    exact .admission (.inr rfl) hreply rfl (fires_of_admissionStep he)
  | job j =>
    obtain ⟨b, c⟩ := r
    cases c with
    | proceed =>
      simp only [admissionReact] at h
      split_ifs at h with hdue
      cases h
      exact .job hdue
    | _ => cases h
  | fetchToTraffic dto =>
    obtain ⟨b, c⟩ := r
    cases c <;> cases h
    exact .fetchToTraffic
  | usageLogger u =>
    obtain ⟨drawn, hdrawn, h⟩ := Option.bind_eq_some_iff.mp h
    obtain ⟨⟨log, out⟩, he, h⟩ := Option.map_eq_some_iff.mp h
    cases h
    exact .usageLogger hdrawn (fires_of_logUsageStep he)

/-- **What a step can do**: run one task, deliver one event, or let time pass. -/
theorem admission_step_cases {allowed : UsageLog → Bool → Bool}
    {s s' : Config AdmissionStore AdmissionTask} {a : Act Reply AdmissionAct}
    (hs : (admissionControl allowed).step s a = some s') :
    (∃ i r t rest ts, a = .run i r ∧ (admissionControl allowed).Runs s i r s' t rest ts ∧
        AdmissionReacts allowed s.store t r s'.store ts) ∨
      (∃ payload, a = .env (.deliver payload) ∧
        s' = ⟨{ s.store with received := s.store.received ++ payload.validate.toList },
          s.pool ++ payload.validate.toList.map fun dto => .scheduler ⟨dto, .readUsage⟩⟩) ∨
      ∃ ms, a = .env (.tick ms) ∧
        s' = ⟨{ s.store with
                clock := s.store.clock + ms
                usage := s.store.usage.lapse (s.store.clock + ms) }, s.pool⟩ := by
  rcases Machine.step_cases hs with ⟨i, r, t, rest, ts, rfl, hr⟩ | ⟨e, ts, rfl, henv, hp⟩
  · exact .inl ⟨i, r, t, rest, ts, rfl, hr, admissionReacts_of_react hr.react⟩
  · obtain ⟨store', pool'⟩ := s'
    cases e with
    | deliver payload =>
      obtain ⟨rfl, rfl⟩ := Prod.mk.inj (Option.some.inj henv)
      obtain rfl : pool' = _ := hp
      exact .inr (.inl ⟨payload, rfl, rfl⟩)
    | tick ms =>
      obtain ⟨rfl, rfl⟩ := Prod.mk.inj (Option.some.inj henv)
      obtain rfl : pool' = s.pool := hp.trans (List.append_nil _)
      exact .inr (.inr ⟨ms, rfl, rfl⟩)

/-! ### Where the requests are -/

/-- The request a task of the scheduler works on. -/
def AdmissionTask.request : AdmissionTask → List SubqueryDto
  | .scheduler a => [a.dto]
  | .processor a => [a.dto]
  | .job j => [j.data]
  | .fetchToTraffic _ => []
  | .usageLogger _ => []

/-- The task is an activation of one of the two paths. -/
def AdmissionTask.isAdmission : AdmissionTask → Bool
  | .scheduler _ => true
  | .processor _ => true
  | _ => false

/-- The requests held by the queue. -/
def queued (s : Config AdmissionStore AdmissionTask) : List SubqueryDto :=
  s.pool.flatMap fun t =>
    match t with
    | .job j => [j.data]
    | _ => []

/-- No activation of the scheduler is running. -/
def atRest (s : Config AdmissionStore AdmissionTask) : Prop :=
  ∀ t ∈ s.pool, t.isAdmission = false

/-- The action makes a call fail that an admission awaits. -/
def fails (s : Config AdmissionStore AdmissionTask) : Act Reply AdmissionAct → Prop
  | .run i ⟨_, .fail⟩ => ∃ t, s.pool[i]? = some t ∧ t.isAdmission = true
  | _ => False

/-- The requests emitted or in the pool. -/
def kept (s : Config AdmissionStore AdmissionTask) : List SubqueryDto :=
  s.store.emitted.map Emission.dto ++ s.pool.flatMap AdmissionTask.request

/-- At rest the requests in the pool are those in the queue. -/
theorem kept_of_atRest {s : Config AdmissionStore AdmissionTask} (h : atRest s) :
    kept s = s.store.emitted.map Emission.dto ++ queued s := by
  rw [kept, queued]
  congr 1
  refine List.flatMap_congr fun t ht => ?_
  cases t with
  | scheduler a => cases h _ ht
  | processor a => cases h _ ht
  | _ => rfl

section Steps

variable {allowed : UsageLog → Bool → Bool} {s s' : Config AdmissionStore AdmissionTask}
  {a : Act Reply AdmissionAct}

/-- **What a segment of an admission does to its request**: keeps it, unless the call it
awaited fails. -/
theorem Admission.Fires.request {onError out : Outcome Admission} {isRateLimited : Bool}
    {dto : SubqueryDto} {phase : AdmissionPhase} {c : Choice} {effect : AdmissionEffect}
    {clock : ℕ} {wrap : Admission → AdmissionTask}
    (h : Fires onError isRateLimited dto phase c effect out) (he : onError.tasks wrap = [])
    (hwrap : ∀ a, (wrap a).request = [a.dto]) :
    (effect.emissions clock).map Emission.dto ++
        (effect.jobs clock ++ out.tasks wrap).flatMap AdmissionTask.request
      = if c = .fail then [] else [dto] := by
  cases h with
  | fails => simp [AdmissionEffect.emissions, AdmissionEffect.jobs, he]
  | answers => simp [AdmissionEffect.emissions, AdmissionEffect.jobs, hwrap]
  | queues => simp [AdmissionEffect.emissions, AdmissionEffect.jobs, AdmissionTask.request]
  | emits => simp [AdmissionEffect.emissions, AdmissionEffect.jobs, AdmissionTask.request]

/-- Records and pool, with the part a step touches in front. -/
theorem kept_perm {α : Type*} (E em R jt : List α) :
    ((E ++ em) ++ (R ++ jt)).Perm ((em ++ jt) ++ (E ++ R)) := by
  classical
  rw [List.perm_iff_count]
  intro x
  simp only [List.count_append]
  omega

/-- **Where the requests are after a reaction**: what was there is kept, but for the
request of an admission whose call fails. -/
theorem AdmissionReacts.request {st st' : AdmissionStore} {t : AdmissionTask} {r : Reply}
    {ts : List AdmissionTask} (h : AdmissionReacts allowed st t r st' ts) :
    st'.received = st.received ∧ ∃ em, st'.emitted = st.emitted ++ em ∧
      em.map Emission.dto ++ ts.flatMap AdmissionTask.request
        = if r.choice = .fail ∧ t.isAdmission then [] else t.request := by
  cases h with
  | @admission wrap onError a r effect out hwrap hreply herror h =>
    refine ⟨rfl, effect.emissions st.clock, rfl, ?_⟩
    have hrequest : ∀ b, (wrap b).request = [b.dto] := by
      rcases hwrap with rfl | rfl <;> exact fun b => rfl
    have hfails : (r.choice = .fail ∧ (wrap a).isAdmission = true) ↔ r.choice = .fail := by
      refine and_iff_left ?_
      rcases hwrap with rfl | rfl <;> rfl
    rw [if_congr hfails rfl rfl, hrequest]
    exact h.request herror hrequest
  | job hdue => exact ⟨rfl, [], by simp, by simp [AdmissionTask.request]⟩
  | fetchToTraffic => exact ⟨rfl, [], by simp, by simp [AdmissionTask.request]⟩
  | @usageLogger u r log drawn out hdrawn h =>
    -- A usage that fails to be logged loses no request.
    refine ⟨rfl, [], by simp, ?_⟩
    cases out <;> simp [AdmissionTask.request, AdmissionTask.isAdmission]

/-- **Where the requests are after a step.** -/
theorem requests_step (hs : (admissionControl allowed).step s a = some s') :
    (¬ fails s a → ∃ new, s'.store.received = s.store.received ++ new ∧
      (kept s').Perm (kept s ++ new)) ∧
      (fails s a → s'.store.received = s.store.received ∧
        ∃ dto, (kept s).Perm (dto :: kept s')) := by
  rcases admission_step_cases hs with ⟨i, r, t, rest, ts, rfl, hr, hreacts⟩ | ⟨payload, rfl, rfl⟩ |
    ⟨ms, rfl, rfl⟩
  · obtain ⟨hreceived, em, hemitted, hrequest⟩ := hreacts.request
    have hbefore : (kept s).Perm (s.store.emitted.map Emission.dto ++
        (t.request ++ rest.flatMap AdmissionTask.request)) :=
      (hr.flatMap_pool AdmissionTask.request).append_left _
    have hafter : (kept s').Perm ((em.map Emission.dto ++ ts.flatMap AdmissionTask.request) ++
        (s.store.emitted.map Emission.dto ++ rest.flatMap AdmissionTask.request)) := by
      rw [kept, hemitted, hr.pool', List.map_append, List.flatMap_append]
      exact kept_perm _ _ _ _
    have hfails : fails s (.run i r) ↔ r.choice = .fail ∧ t.isAdmission = true := by
      obtain ⟨b, c⟩ := r
      cases c with
      | fail => simp [fails, hr.get]
      | _ => simp [fails]
    rw [hrequest] at hafter
    rw [hfails]
    constructor
    · -- The request is emitted, or handed on to the successor.
      intro hno
      rw [if_neg hno] at hafter
      refine ⟨[], by rw [hreceived, List.append_nil], ?_⟩
      rw [List.append_nil]
      refine hafter.trans (List.Perm.trans ?_ hbefore.symm)
      rw [← List.append_assoc, ← List.append_assoc]
      exact List.perm_append_comm.append_right _
    · -- The request is in neither, and was in the task.
      intro hfail
      rw [if_pos hfail, List.nil_append] at hafter
      obtain ⟨dto, ht⟩ : ∃ dto, t.request = [dto] := by
        cases t with
        | scheduler b => exact ⟨b.dto, rfl⟩
        | processor b => exact ⟨b.dto, rfl⟩
        | _ => cases hfail.2
      refine ⟨hreceived, dto, ?_⟩
      rw [ht] at hbefore
      exact hbefore.trans (List.perm_middle.trans (hafter.symm.cons _))
  · refine ⟨fun _ => ⟨payload.validate.toList, rfl, ?_⟩, fun hfail => absurd hfail id⟩
    have hnew : (payload.validate.toList.map fun dto =>
        AdmissionTask.scheduler ⟨dto, .readUsage⟩).flatMap AdmissionTask.request
          = payload.validate.toList := by
      cases payload.validate <;> rfl
    rw [kept, kept, List.flatMap_append, hnew, List.append_assoc]
  · refine ⟨fun _ => ⟨[], (List.append_nil _).symm, ?_⟩, fun hfail => absurd hfail id⟩
    rw [kept, kept, List.append_nil]

/-- What was received is what is kept and what was lost, and nothing was lost just in
case no call failed. -/
theorem requests_of_run {tr : List (Config AdmissionStore AdmissionTask × Act Reply AdmissionAct)}
    (h : Run (admissionControl allowed).step noRequests tr s) :
    ∃ lost, s.store.received.Perm (kept s ++ lost) ∧ (lost = [] ↔ ∀ p ∈ tr, ¬ fails p.1 p.2) := by
  induction h with
  | nil => exact ⟨[], List.Perm.refl _, by simp⟩
  | @snoc tr s s' a hrun hs ih =>
    obtain ⟨lost, hperm, hlost⟩ := ih
    obtain ⟨hkeeps, hloses⟩ := requests_step hs
    simp only [List.mem_append, List.mem_singleton, or_imp, forall_and, forall_eq, ← hlost]
    -- The requests lost so far stay lost, and at most one more is.
    by_cases hf : fails s a
    · obtain ⟨hreceived, dto, hdto⟩ := hloses hf
      refine ⟨dto :: lost, ?_, by simp [hf]⟩
      rw [hreceived]
      refine hperm.trans ((hdto.append_right lost).trans ?_)
      rw [List.cons_append]
      exact List.perm_middle.symm
    · obtain ⟨new, hreceived, hnew⟩ := hkeeps hf
      refine ⟨lost, ?_, by simp [hf]⟩
      rw [hreceived]
      refine (hperm.append_right new).trans (List.Perm.trans ?_ (hnew.symm.append_right lost))
      rw [List.append_assoc, List.append_assoc]
      exact List.perm_append_comm.append_left _

end Steps

/-- **When no request is lost.**  Whatever the traffic controller may reply, in every
state at rest the requests received are those emitted and those held by the queue just
in case none of the calls an admission awaits has failed. -/
theorem no_request_lost_iff (allowed : UsageLog → Bool → Bool)
    {tr : List (Config AdmissionStore AdmissionTask × Act Reply AdmissionAct)}
    {s : Config AdmissionStore AdmissionTask}
    (h : Run (admissionControl allowed).step noRequests tr s) (hrest : atRest s) :
    s.store.received.Perm (s.store.emitted.map Emission.dto ++ queued s) ↔
      ∀ p ∈ tr, ¬ fails p.1 p.2 := by
  obtain ⟨lost, hperm, hlost⟩ := requests_of_run h
  rw [← kept_of_atRest hrest, ← hlost]
  constructor
  · intro hkept
    -- Two lists with the same elements have the same length.
    have hlen := (hkept.symm.trans hperm).length_eq
    rw [List.length_append] at hlen
    exact List.eq_nil_of_length_eq_zero (by omega)
  · rintro rfl
    simpa using hperm

/-- A request is queued, since the limit is reached.  A day later its job runs, and the
call to the traffic controller fails. -/
def failedCheck : List (Act Reply AdmissionAct) :=
  [.env (.deliver ⟨some ⟨0⟩, some "people/1", ⟨1⟩⟩), .run 0 ⟨true, .proceed⟩,
    .run 0 ⟨true, .proceed⟩, .env (.tick (86400 * 1000)), .run 0 ⟨true, .proceed⟩,
    .run 0 ⟨true, .fail⟩]

/-- **A request that is lost**: it is neither emitted nor queued, and nothing runs. -/
theorem request_lost :
    ∃ s, Reachable (admissionControl fun _ _ => true).step noRequests s ∧ s.pool = [] ∧
      s.store.received = [⟨⟨0⟩, "people/1", ⟨1⟩, .null⟩] ∧ s.store.emitted = [] := by
  have hexec : (exec (admissionControl fun _ _ => true).step noRequests failedCheck).any (fun s =>
      s.pool = [] ∧ s.store.received = [⟨⟨0⟩, "people/1", ⟨1⟩, .null⟩] ∧
        s.store.emitted = []) = true := by decide +kernel
  obtain ⟨s, hs, hp⟩ := exists_reachable_of_exec _ hexec
  exact ⟨s, hs, of_decide_eq_true hp⟩

theorem no_request_lost_iff_failedCheck :
    ∃ tr s, Run (admissionControl fun _ _ => true).step noRequests tr s ∧
      tr.map Prod.snd = failedCheck ∧
      (s.store.received.Perm (s.store.emitted.map Emission.dto ++ queued s) ↔
        ∀ p ∈ tr, ¬ fails p.1 p.2) := by
  have hexec : (exec (admissionControl fun _ _ => true).step noRequests failedCheck).any
      (fun s => s.pool = []) = true := by decide +kernel
  obtain ⟨tr, s, hrun, htr, hp⟩ := exists_run_of_exec _ hexec
  have hpool : s.pool = [] := of_decide_eq_true hp
  have hrest : atRest s := fun t ht => by
    rw [hpool] at ht
    cases ht
  exact ⟨tr, s, hrun, htr, no_request_lost_iff _ hrun hrest⟩

end SwapiService
