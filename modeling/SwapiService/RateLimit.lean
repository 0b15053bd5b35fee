import SwapiService.AdmissionControl
import SwapiService.UsageAccounting

/-!
# The rate limit

The check and the count are in different services.  A request is admitted when the
traffic controller answers that the limit is not reached; it is emitted later; and it
is counted when the traffic controller has got round to it.  Between the first and the
last, further requests are admitted against a count that misses it.

## Main definitions

* `rateLimiter` — the admission paths, the traffic controller replying by its log.
* `Admits`, `AdmitsWithin` — a request is admitted, and rightly so.
* `LogComplete` — what the log misses is on its way to it.

## Main results

* `rate_limit_respected` — the condition under which the limit holds.
* `exceeds_of_not_admitsWithin` — without it the limit can be exceeded.
* `logComplete_of_run` — the log itself never misses anything for good.
* `rate_limit_of_quiet` — the limit holds if no two requests overlap.
* `rate_limit_exceeded` — two requests, and a limit of one.
-/

namespace SwapiService

open TaskPool Transition SlidingWindow

/-- The traffic controller replies what its log says. -/
def byLog (limit : ℕ) (log : UsageLog) (isRateLimited : Bool) : Bool :=
  isRateLimited == log.getIsRateLimitedAsync limit

/-- The admission paths and the traffic controller, with `REQUEST_LIMIT`. -/
def rateLimiter (limit : ℕ) : Machine AdmissionStore AdmissionTask Reply AdmissionAct :=
  admissionControl (byLog limit)

/-- When the `FETCH` events were emitted. -/
def emittedAt (s : Config AdmissionStore AdmissionTask) : List ℕ :=
  s.store.emitted.map Emission.time

/-- An activation that waits for the traffic controller's reply. -/
def AdmissionTask.isCheck : AdmissionTask → Bool
  | .scheduler ⟨_, .readUsage⟩ => true
  | .processor ⟨_, .readUsage⟩ => true
  | _ => false

/-- An activation that was told that the limit is not reached. -/
def AdmissionTask.isAdmitted : AdmissionTask → Bool
  | .scheduler ⟨_, .answered false⟩ => true
  | .processor ⟨_, .answered false⟩ => true
  | _ => false

/-- The requests admitted and still to be emitted. -/
def admitted (s : Config AdmissionStore AdmissionTask) : ℕ :=
  s.pool.countP AdmissionTask.isAdmitted

/-- The action admits a request. -/
def Admits (s : Config AdmissionStore AdmissionTask) : Act Reply AdmissionAct → Bool
  | .run i ⟨false, .proceed⟩ => s.pool[i]?.any AdmissionTask.isCheck
  | _ => false

/-- If the action admits a request, then the limit is not reached by the events emitted
during the last day and the requests admitted before. -/
def AdmitsWithin (limit : ℕ) (s : Config AdmissionStore AdmissionTask)
    (a : Act Reply AdmissionAct) : Prop :=
  Admits s a = true →
    recent windowInMilliseconds s.store.clock (emittedAt s) + admitted s < limit

instance (limit : ℕ) (s : Config AdmissionStore AdmissionTask) (a : Act Reply AdmissionAct) :
    Decidable (AdmitsWithin limit s a) :=
  inferInstanceAs (Decidable (_ → _))

/-! ### One step -/

/-- What an action does to the limit. -/
inductive LimitStep (s s' : Config AdmissionStore AdmissionTask) : Bool → Prop
  | admits (hclock : s'.store.clock = s.store.clock) (htimes : emittedAt s' = emittedAt s)
      (hpending : admitted s' = admitted s + 1) : LimitStep s s' true
  | emits (hclock : s'.store.clock = s.store.clock)
      (htimes : emittedAt s' = emittedAt s ++ [s.store.clock])
      (hpending : admitted s = admitted s' + 1) : LimitStep s s' false
  | other (hclock : s.store.clock ≤ s'.store.clock) (htimes : emittedAt s' = emittedAt s)
      (hpending : admitted s' ≤ admitted s) : LimitStep s s' false

section Steps

variable {allowed : UsageLog → Bool → Bool} {s s' : Config AdmissionStore AdmissionTask}
  {a : Act Reply AdmissionAct}

/-- **What a reaction does to the limit**: it admits a request, or emits one that was
admitted, or neither. -/
theorem AdmissionReacts.limit {st st' : AdmissionStore} {t : AdmissionTask} {r : Reply}
    {ts : List AdmissionTask} (h : AdmissionReacts allowed st t r st' ts) :
    st'.clock = st.clock ∧
      ((t.isCheck && decide (r = ⟨false, .proceed⟩)) = true ∧ st'.emitted = st.emitted ∧
          t.isAdmitted = false ∧ ts.countP AdmissionTask.isAdmitted = 1 ∨
        (t.isCheck && decide (r = ⟨false, .proceed⟩)) = false ∧
          (∃ dto, st'.emitted = st.emitted ++ [⟨st.clock, dto⟩]) ∧
          t.isAdmitted = true ∧ ts.countP AdmissionTask.isAdmitted = 0 ∨
        (t.isCheck && decide (r = ⟨false, .proceed⟩)) = false ∧ st'.emitted = st.emitted ∧
          ts.countP AdmissionTask.isAdmitted = 0) := by
  cases h with
  | @admission wrap onError b r effect out hwrap hreply herror h =>
    refine ⟨rfl, ?_⟩
    obtain ⟨dto, phase⟩ := b
    obtain ⟨b, c⟩ := r
    cases h with
    | fails =>
      refine .inr (.inr ⟨by simp, List.append_nil _, ?_⟩)
      show (onError.tasks wrap).countP _ = 0
      rw [herror]
      rfl
    | answers =>
      cases b with
      | false =>
        refine .inl ⟨?_, List.append_nil _, ?_, ?_⟩ <;> rcases hwrap with rfl | rfl <;> rfl
      | true =>
        refine .inr (.inr ⟨by simp, List.append_nil _, ?_⟩)
        rcases hwrap with rfl | rfl <;> rfl
    | queues =>
      refine .inr (.inr ⟨?_, List.append_nil _, rfl⟩)
      rcases hwrap with rfl | rfl <;> rfl
    | emits =>
      refine .inr (.inl ⟨?_, ⟨dto, rfl⟩, ?_, rfl⟩) <;> rcases hwrap with rfl | rfl <;> rfl
  | job hdue => exact ⟨rfl, .inr (.inr ⟨rfl, rfl, rfl⟩)⟩
  | fetchToTraffic => exact ⟨rfl, .inr (.inr ⟨rfl, rfl, rfl⟩)⟩
  | @usageLogger u r log drawn out hdrawn h =>
    refine ⟨rfl, .inr (.inr ⟨rfl, rfl, ?_⟩)⟩
    cases out <;> rfl

/-- **What a step does to the limit.** -/
theorem limitStep_of_step (hs : (admissionControl allowed).step s a = some s') :
    LimitStep s s' (Admits s a) := by
  rcases admission_step_cases hs with ⟨i, r, t, rest, ts, rfl, hr, hreacts⟩ | ⟨payload, rfl, rfl⟩ |
    ⟨ms, rfl, rfl⟩
  · have hadmits : Admits s (.run i r) = (t.isCheck && decide (r = ⟨false, .proceed⟩)) := by
      obtain ⟨b, c⟩ := r
      cases b <;> cases c <;> simp [Admits, hr.get]
    have hbefore := hr.countP_pool AdmissionTask.isAdmitted
    have hafter := hr.countP_pool' AdmissionTask.isAdmitted
    have hlimit := hreacts.limit
    rw [hadmits]
    obtain ⟨hclock, ⟨hd, hem, ht, hts⟩ | ⟨hd, ⟨dto, hem⟩, ht, hts⟩ | ⟨hd, hem, hts⟩⟩ := hlimit
    -- The rest of the pool is the same, so the counts differ by the task and its successors.
    · rw [hd]
      rw [if_neg (by rw [ht]; exact Bool.false_ne_true)] at hbefore
      refine .admits hclock (by rw [emittedAt, hem, emittedAt]) ?_
      unfold admitted
      omega
    · rw [hd]
      rw [if_pos ht] at hbefore
      refine .emits hclock (by rw [emittedAt, hem, List.map_append, emittedAt]; rfl) ?_
      unfold admitted
      omega
    · rw [hd]
      refine .other hclock.ge (by rw [emittedAt, hem, emittedAt]) ?_
      unfold admitted
      omega
  · -- A new activation has no reply yet.
    refine .other (Nat.le_refl _) rfl ?_
    have hnew : (payload.validate.toList.map fun dto =>
        AdmissionTask.scheduler ⟨dto, .readUsage⟩).countP AdmissionTask.isAdmitted = 0 := by
      cases payload.validate <;> rfl
    rw [admitted, List.countP_append, hnew]
    exact le_rfl
  · exact .other (Nat.le_add_right _ _) rfl le_rfl

/-- Emissions lie in the past. -/
theorem emittedAt_past (h : Reachable (admissionControl allowed).step noRequests s) :
    ∀ x ∈ emittedAt s, x ≤ s.store.clock := by
  refine h.invariant (I := fun t => ∀ x ∈ emittedAt t, x ≤ t.store.clock)
    (fun x hx => nomatch hx) fun hI hs x hx => ?_
  have hlimit := limitStep_of_step hs
  generalize Admits _ _ = b at hlimit
  cases hlimit with
  | admits hclock htimes hpending =>
    rw [htimes] at hx
    exact hclock ▸ hI x hx
  | emits hclock htimes hpending =>
    rw [htimes, List.mem_append, List.mem_singleton] at hx
    rcases hx with hx | rfl
    · exact hclock ▸ hI x hx
    · exact hclock.ge
  | other hclock htimes hpending =>
    rw [htimes] at hx
    exact (hI x hx).trans hclock

/-! ### The limit -/

/-- **A step that admits no request beyond the limit** keeps the limiter's invariant. -/
theorem bounded_step {limit : ℕ}
    (h : Bounded windowInMilliseconds limit s.store.clock (admitted s) (emittedAt s))
    (hwithin : AdmitsWithin limit s a) (hs : (admissionControl allowed).step s a = some s') :
    Bounded windowInMilliseconds limit s'.store.clock (admitted s') (emittedAt s') := by
  unfold AdmitsWithin at hwithin
  have hlimit := limitStep_of_step hs
  generalize Admits s a = b at hwithin hlimit
  cases hlimit with
  | admits hclock htimes hpending =>
    rw [hclock, htimes, hpending]
    exact h.admit (hwithin rfl)
  | emits hclock htimes hpending =>
    rw [hclock, htimes]
    rw [hpending] at h
    exact h.happen
  | other hclock htimes hpending =>
    rw [htimes]
    exact (h.withdraw hpending).later hclock

end Steps

section Runs

variable {limit : ℕ} {tr : List (Config AdmissionStore AdmissionTask × Act Reply AdmissionAct)}
  {s : Config AdmissionStore AdmissionTask}

/-- So does a run that admits no request beyond the limit. -/
theorem within_le_of_run (h : Run (rateLimiter limit).step noRequests tr s)
    (hwithin : ∀ p ∈ tr, AdmitsWithin limit p.1 p.2) (t : ℕ) :
    within windowInMilliseconds (emittedAt s) t ≤ limit := by
  have hbounded : Bounded windowInMilliseconds limit s.store.clock (admitted s) (emittedAt s) :=
    h.invariant_of hwithin (Bounded.nil _ _ _) fun hI hC hs => bounded_step hI hC hs
  exact hbounded.windows t

/-- **When the rate limit is respected.**  If in a run every request is admitted with
fewer than `limit` events emitted during the last day and requests admitted before
together, then at no time are there more than `limit` events in any window of a day. -/
theorem rate_limit_respected (h : Run (rateLimiter limit).step noRequests tr s)
    (hwithin : ∀ p ∈ tr, AdmitsWithin limit p.1 p.2) :
    ∀ s' ∈ visited tr s, ∀ t, within windowInMilliseconds (emittedAt s') t ≤ limit := by
  intro s' hs' t
  obtain ⟨tr₁, tr₂, rfl, h₁, -⟩ := h.split hs'
  exact within_le_of_run h₁ (fun p hp => hwithin p (List.mem_append_left _ hp)) t

end Runs

/-! ### The converse -/

/-- Whatever the log says by now, an activation acts on the reply it holds. -/
theorem react_of_isAdmitted {limit : ℕ} {st : AdmissionStore} {t : AdmissionTask}
    (h : t.isAdmitted = true) : ∃ dto ts,
      admissionReact (byLog limit) st t ⟨st.usage.getIsRateLimitedAsync limit, .proceed⟩
        = some ({ st with emitted := st.emitted ++ [⟨st.clock, dto⟩] }, ts) := by
  have hallowed : byLog limit st.usage (st.usage.getIsRateLimitedAsync limit) = true :=
    beq_self_eq_true _
  match t, h with
  | .scheduler ⟨dto, .answered false⟩, _ =>
    refine ⟨dto, [.fetchToTraffic dto], ?_⟩
    rw [admissionReact, if_pos hallowed]
    rfl
  | .processor ⟨dto, .answered false⟩, _ =>
    refine ⟨dto, [.fetchToTraffic dto], ?_⟩
    rw [admissionReact, if_pos hallowed]
    rfl

/-- The requests admitted can all be emitted at once. -/
theorem exists_emitted (limit n : ℕ) {s : Config AdmissionStore AdmissionTask}
    (hn : admitted s = n) : ∃ s', Reachable (rateLimiter limit).step s s' ∧
      s'.store.clock = s.store.clock ∧
      emittedAt s' = emittedAt s ++ List.replicate n s.store.clock := by
  induction n generalizing s with
  | zero => exact ⟨s, .refl s, rfl, (List.append_nil _).symm⟩
  | succ n ih =>
    have hpos : 0 < s.pool.countP AdmissionTask.isAdmitted := by
      rw [← admitted, hn]
      exact Nat.succ_pos n
    obtain ⟨t, ht, hadmitted⟩ := List.countP_pos_iff.mp hpos
    obtain ⟨i, hi⟩ := List.mem_iff_getElem?.mp ht
    obtain ⟨dto, ts, hreact⟩ := @react_of_isAdmitted limit s.store t hadmitted
    have hs₁ := Machine.step_run (M := rateLimiter limit) hi hreact
    generalize hs₁' : (⟨_, _⟩ : Config AdmissionStore AdmissionTask) = s₁ at hs₁
    have hclock : s₁.store.clock = s.store.clock := by rw [← hs₁']
    have htimes : emittedAt s₁ = emittedAt s ++ [s.store.clock] := by
      rw [← hs₁', emittedAt, List.map_append]
      rfl
    have hrest : admitted s₁ = n := by
      -- The step has emitted an event, which only one of the three kinds of steps does.
      have hlimit := limitStep_of_step hs₁
      generalize Admits _ _ = b at hlimit
      have hlonger : emittedAt s₁ ≠ emittedAt s := by
        rw [htimes]
        intro heq
        exact List.cons_ne_nil _ _ (List.append_right_eq_self.mp heq)
      cases hlimit with
      | admits _ hsame _ => exact absurd hsame hlonger
      | emits _ _ hpending => omega
      | other _ hsame _ => exact absurd hsame hlonger
    obtain ⟨s', hs', hclock', htimes'⟩ := ih hrest
    refine ⟨s', ((Reachable.refl s).tail hs₁).trans hs', hclock'.trans hclock, ?_⟩
    rw [htimes', htimes, hclock, List.append_assoc]
    rfl

/-- **The condition is necessary**: as soon as a request has been admitted beyond the
limit, the requests admitted need only be emitted to exceed it. -/
theorem exceeds_of_not_admitsWithin (limit : ℕ) {s s' : Config AdmissionStore AdmissionTask}
    {a : Act Reply AdmissionAct} (h : Reachable (rateLimiter limit).step noRequests s)
    (hs : (rateLimiter limit).step s a = some s') (hno : ¬ AdmitsWithin limit s a) :
    ∃ s'', Reachable (rateLimiter limit).step s' s'' ∧
      ∃ t, limit < within windowInMilliseconds (emittedAt s'') t := by
  unfold AdmitsWithin at hno
  obtain ⟨hadmits, hlimit⟩ := Classical.not_imp.mp hno
  have hstep := limitStep_of_step hs
  rw [hadmits] at hstep
  cases hstep with
  | admits hclock htimes hpending =>
    -- All requests admitted by now are emitted in the same millisecond.
    obtain ⟨s'', hs'', hclock', htimes'⟩ := exists_emitted limit (admitted s + 1) hpending
    refine ⟨s'', hs'', exceeded_of_recent (emittedAt_past ((h.tail hs).trans hs'')) ?_⟩
    rw [hclock', htimes', htimes, hclock, recent_append, recent_replicate (by decide)]
    omega

/-! ### The log -/

/-- The usages that an activation will log. -/
def AdmissionTask.owes : AdmissionTask → List UsageLogging
  | .fetchToTraffic _ => [.getUsageCount]
  | .usageLogger u => [u]
  | _ => []

/-- The usages that are still to be logged. -/
def owed (s : Config AdmissionStore AdmissionTask) : List UsageLogging :=
  s.pool.flatMap AdmissionTask.owes

/-- The action makes the logging of a usage fail. -/
def LoggingFails (s : Config AdmissionStore AdmissionTask) : Act Reply AdmissionAct → Prop
  | .run i ⟨_, .fail⟩ => ∃ u, s.pool[i]? = some (.usageLogger u)
  | _ => False

/-- The log accounts for what was emitted. -/
def LogComplete (s : Config AdmissionStore AdmissionTask) : Prop :=
  Logged s.store.usage s.store.clock s.store.drawn (emittedAt s) (owed s)

/-- A reaction keeps the log complete, unless the logging of a usage fails. -/
theorem AdmissionReacts.logged {allowed : UsageLog → Bool → Bool} {st st' : AdmissionStore}
    {t : AdmissionTask} {r : Reply} {ts : List AdmissionTask} {us : List UsageLogging}
    (h : AdmissionReacts allowed st t r st' ts) (hfail : r.choice = .fail → ∀ u, t ≠ .usageLogger u)
    (hlog : Logged st.usage st.clock st.drawn (st.emitted.map Emission.time) (t.owes ++ us)) :
    Logged st'.usage st'.clock st'.drawn (st'.emitted.map Emission.time)
      (ts.flatMap AdmissionTask.owes ++ us) := by
  cases h with
  | @admission wrap onError a r effect out hwrap hreply herror h =>
    have howes : ∀ b, (wrap b).owes = [] := by
      rcases hwrap with rfl | rfl <;> exact fun b => rfl
    rw [howes, List.nil_append] at hlog
    obtain ⟨dto, phase⟩ := a
    obtain ⟨b, c⟩ := r
    cases h with
    | fails =>
      show Logged _ _ _ ((st.emitted ++ []).map Emission.time)
        ((onError.tasks wrap).flatMap AdmissionTask.owes ++ us)
      rw [herror, List.append_nil]
      exact hlog
    | answers =>
      show Logged _ _ _ ((st.emitted ++ []).map Emission.time) ((wrap _).owes ++ [] ++ us)
      rw [howes, List.append_nil]
      exact hlog
    | queues =>
      show Logged _ _ _ ((st.emitted ++ []).map Emission.time) us
      rw [List.append_nil]
      exact hlog
    | emits =>
      show Logged _ _ _ ((st.emitted ++ [_]).map Emission.time) (.getUsageCount :: us)
      rw [List.map_append]
      exact hlog.emit
  | job hdue => exact hlog
  | fetchToTraffic => exact hlog
  | @usageLogger u r log drawn out hdrawn h =>
    obtain ⟨b, c⟩ := r
    cases h with
    | fails => exact absurd rfl (hfail rfl u)
    | reads id =>
      simp only [AdmissionStore.draws] at hdrawn
      split_ifs at hdrawn with hfresh
      obtain rfl := Option.some.inj hdrawn
      exact hlog.read hfresh
    | records now id =>
      obtain rfl := Option.some.inj hdrawn
      exact hlog.record

/-- A step keeps the log complete, unless the logging of a usage fails. -/
theorem logComplete_step {allowed : UsageLog → Bool → Bool}
    {s s' : Config AdmissionStore AdmissionTask} {a : Act Reply AdmissionAct}
    (h : LogComplete s) (hfail : ¬ LoggingFails s a)
    (hs : (admissionControl allowed).step s a = some s') : LogComplete s' := by
  unfold LogComplete at h ⊢
  rcases admission_step_cases hs with ⟨i, r, t, rest, ts, rfl, hr, hreacts⟩ | ⟨payload, rfl, rfl⟩ |
    ⟨ms, rfl, rfl⟩
  · have hrest := h.perm (hr.flatMap_pool AdmissionTask.owes)
    have hafter : (ts.flatMap AdmissionTask.owes ++ rest.flatMap AdmissionTask.owes).Perm
        (owed s') := by
      rw [owed, hr.pool', List.flatMap_append]
      exact List.perm_append_comm
    refine (hreacts.logged ?_ hrest).perm hafter
    rintro hc u rfl
    obtain ⟨b, c⟩ := r
    obtain rfl : c = .fail := hc
    exact hfail ⟨u, hr.get⟩
  · have hnew : (payload.validate.toList.map fun dto =>
        AdmissionTask.scheduler ⟨dto, .readUsage⟩).flatMap AdmissionTask.owes = [] := by
      cases payload.validate <;> rfl
    rw [owed, List.flatMap_append, hnew, List.append_nil]
    exact h
  · exact h.tick (Nat.le_add_right _ _)

/-- **The log is complete** after every run in which no usage fails to be logged. -/
theorem logComplete_of_run {allowed : UsageLog → Bool → Bool}
    {tr : List (Config AdmissionStore AdmissionTask × Act Reply AdmissionAct)}
    {s : Config AdmissionStore AdmissionTask}
    (h : Run (admissionControl allowed).step noRequests tr s)
    (hfail : ∀ p ∈ tr, ¬ LoggingFails p.1 p.2) : LogComplete s :=
  h.invariant_of hfail
    ⟨(fun _ hx => nomatch hx), (fun _ _ hu => nomatch hu), (fun _ he => nomatch he),
      List.nodup_nil, fun _ _ => Nat.zero_le _⟩
    fun hI hC hs => logComplete_step hI hC hs

/-- A request is admitted only when the log has room for it. -/
theorem zcard_lt_of_admits {limit : ℕ} {s s' : Config AdmissionStore AdmissionTask}
    {a : Act Reply AdmissionAct} (hs : (rateLimiter limit).step s a = some s')
    (hadmits : Admits s a = true) : s.store.usage.zcard < limit := by
  rcases admission_step_cases hs with ⟨i, r, t, rest, ts, rfl, hr, hreacts⟩ | ⟨payload, rfl, -⟩ |
    ⟨ms, rfl, -⟩
  · obtain ⟨b, c⟩ := r
    have hcheck : t.isCheck = true ∧ b = false := by
      cases b <;> cases c <;> simp_all [Admits, hr.get]
    obtain ⟨hcheck, rfl⟩ := hcheck
    generalize s'.store = st at hreacts
    cases hreacts with
    | admission hwrap hreply herror h =>
      -- The reply `false` is what the log says now.
      have hreply := eq_of_beq hreply
      exact Nat.lt_of_not_le (of_decide_eq_false hreply.symm)
    | job _ => cases hcheck
    | fetchToTraffic => cases hcheck
    | usageLogger _ _ => cases hcheck
  · cases hadmits
  · cases hadmits

/-- **The limit holds if no two requests overlap**: it is respected in every run in which
no usage fails to be logged and each request is admitted only once all requests admitted
before have been emitted and logged. -/
theorem rate_limit_of_quiet {limit : ℕ}
    {tr : List (Config AdmissionStore AdmissionTask × Act Reply AdmissionAct)}
    {s : Config AdmissionStore AdmissionTask} (h : Run (rateLimiter limit).step noRequests tr s)
    (hfail : ∀ p ∈ tr, ¬ LoggingFails p.1 p.2)
    (hquiet : ∀ p ∈ tr, Admits p.1 p.2 = true → admitted p.1 = 0 ∧ owed p.1 = []) (t : ℕ) :
    within windowInMilliseconds (emittedAt s) t ≤ limit := by
  refine within_le_of_run h (fun p hp hadmits => ?_) t
  obtain ⟨tr₁, tr₂, s', rfl, h₁, hs, -⟩ := h.of_mem hp
  obtain ⟨hadmitted, howed⟩ := hquiet p hp hadmits
  have hcomplete : LogComplete p.1 :=
    logComplete_of_run h₁ fun q hq => hfail q (List.mem_append_left _ hq)
  unfold LogComplete at hcomplete
  rw [howed] at hcomplete
  -- With nothing owed, the log counts every recent event, and it had room for one more.
  have hrecent := hcomplete.recent_le
  have hroom := zcard_lt_of_admits hs hadmits
  omega

/-- Two requests are checked before either is emitted. -/
def checkedTogether : List (Act Reply AdmissionAct) :=
  [.env (.deliver ⟨some ⟨0⟩, some "people/1", ⟨2⟩⟩),
    .env (.deliver ⟨some ⟨1⟩, some "planets/1", ⟨2⟩⟩),
    .run 0 ⟨false, .proceed⟩, .run 0 ⟨false, .proceed⟩, .run 0 ⟨false, .proceed⟩,
    .run 0 ⟨false, .proceed⟩]

/-- **A limit that is exceeded**: one event a day is allowed, and two are emitted at once. -/
theorem rate_limit_exceeded :
    ∃ s, Reachable (rateLimiter 1).step noRequests s ∧
      within windowInMilliseconds (emittedAt s) 0 = 2 := by
  have hexec : (exec (rateLimiter 1).step noRequests checkedTogether).any (fun s =>
      within windowInMilliseconds (emittedAt s) 0 = 2) = true := by decide +kernel
  obtain ⟨s, hs, hp⟩ := exists_reachable_of_exec _ hexec
  exact ⟨s, hs, of_decide_eq_true hp⟩

/-- Two requests, the second of which comes a day after the first. -/
def dayByDay : List (Act Reply AdmissionAct) :=
  [.env (.deliver ⟨some ⟨0⟩, some "people/1", ⟨2⟩⟩), .run 0 ⟨false, .proceed⟩,
    .run 0 ⟨false, .proceed⟩, .run 0 ⟨false, .proceed⟩, .run 0 ⟨false, .draw ⟨3⟩⟩,
    .run 0 ⟨false, .proceed⟩, .env (.deliver ⟨some ⟨1⟩, some "planets/1", ⟨2⟩⟩),
    .run 0 ⟨true, .proceed⟩, .run 0 ⟨true, .proceed⟩, .env (.tick windowInMilliseconds),
    .run 0 ⟨false, .proceed⟩, .run 0 ⟨false, .proceed⟩, .run 0 ⟨false, .proceed⟩]

theorem rate_limit_respected_dayByDay :
    ∃ tr s, Run (rateLimiter 1).step noRequests tr s ∧ tr.map Prod.snd = dayByDay ∧
      emittedAt s = [0, windowInMilliseconds] ∧
      ∀ s' ∈ visited tr s, ∀ t, within windowInMilliseconds (emittedAt s') t ≤ 1 := by
  have hexec : (exec (restrict (fun s a => AdmitsWithin 1 s a) (rateLimiter 1).step) noRequests
      dayByDay).any (fun s => emittedAt s = [0, windowInMilliseconds]) = true := by
    decide +kernel
  obtain ⟨tr, s, hrun, htr, hp⟩ := exists_run_of_exec _ hexec
  obtain ⟨hrun, hwithin⟩ := hrun.of_restrict
  exact ⟨tr, s, hrun, htr, of_decide_eq_true hp,
    rate_limit_respected hrun fun p hp => of_decide_eq_true (hwithin p hp)⟩

end SwapiService
