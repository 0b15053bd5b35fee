import SwapiService.Lib.TrimmedLog
import SwapiService.System
import SwapiService.UsageAccounting

/-!
# The sliding window of the limiter

The usage log on its own: any number of calls of `logUsage`, their clock reads and their
`MULTI`s in any order, limit checks and the passing of time.  A check reads the
cardinality of the log, which is tidied up only when a usage is recorded.  So it never
misses a usage of the last day, but it may count one that is older: one that has left
the window, and that no later usage has trimmed yet.

## Main definitions

* `usageWindow` — the machine; its store keeps what was recorded.
* `windowCount` — the usages of the last day.
* `UsageStore.Sound` — the log holds what `TrimmedLog.held` says.

## Main results

* `sound_of_run` — in every run.
* `limiter_never_undercounts` — a check answers `true` when the limit is reached, and a
  usage recorded at once leaves the window and nothing else.
* `late_record` — a usage recorded late leaves more.
* `throttles_only_full_iff` — when a check answers `false` below the limit.
* `throttled_below_limit` — a check that does not.
-/

namespace SwapiService

open TaskPool Transition TrimmedLog

/-! ### The machine -/

/-- The usage log, the clock, the UUIDs drawn so far, and what was recorded. -/
structure UsageStore where
  log : UsageLog
  clock : ℕ
  drawn : List Uuid
  writes : List (Write Uuid)

/-- What happens from outside: `logUsage` is called; the limit is checked, which only
reads; time passes. -/
inductive UsageAct
  | logUsage
  | getIsRateLimited
  | tick (ms : ℕ)
  deriving DecidableEq, Repr

/-- The UUID a call draws has not been drawn before. -/
def UsageStore.fresh (s : UsageStore) : Choice → Bool
  | .draw id => id ∉ s.drawn
  | _ => true

/-- The UUIDs drawn after a choice. -/
def UsageStore.drawnAfter (s : UsageStore) : Choice → List Uuid
  | .draw id => id :: s.drawn
  | _ => s.drawn

/-- What a segment of `logUsage` records at time `clock`. -/
def UsageLogging.writes (clock : ℕ) : UsageLogging → Choice → List (Write Uuid)
  | .multiExec now usageId, .proceed => [⟨clock, now, usageId⟩]
  | _, _ => []

/-- One segment of `logUsage`. -/
def usageReact (s : UsageStore) (u : UsageLogging) (c : Choice) :
    Option (UsageStore × List UsageLogging) :=
  if s.fresh c then
    (logUsageStep s.clock s.log u c).map fun r =>
      (⟨r.1, s.clock, s.drawnAfter c, s.writes ++ u.writes s.clock c⟩, r.2.tasks id)
  else none

/-- What happens from outside. -/
def usageEnvironment (s : UsageStore) : UsageAct → Option (UsageStore × List UsageLogging)
  | .logUsage => some (s, [.getUsageCount])
  | .getIsRateLimited => some (s, [])
  | .tick ms => some ({ s with clock := s.clock + ms, log := s.log.lapse (s.clock + ms) }, [])

/-- The calls of `logUsage`. -/
def usageWindow : Machine UsageStore UsageLogging Choice UsageAct := ⟨usageReact, usageEnvironment⟩

/-- The usage log of the whole system, with a record of what was written. -/
def Store.usageStore (s : Store) (writes : List (Write Uuid)) : UsageStore :=
  ⟨s.usage, s.clock, s.drawn, writes⟩

/-- **The system's calls of `logUsage` are these**, segment by segment. -/
theorem usageReact_of_react {cfg : Settings} {s s' : Store} {dto : SubqueryDto}
    {u : UsageLogging} {c : Choice} {ts : List Task}
    (h : react cfg s (.usageLogger dto u) c = some (s', ts)) (writes : List (Write Uuid)) :
    ∃ us, ts = us.map (.usageLogger dto) ∧ usageReact (s.usageStore writes) u c
      = some (s'.usageStore (writes ++ u.writes s.clock c), us) := by
  simp only [react] at h
  split_ifs at h with hfresh
  obtain ⟨⟨log, out⟩, hstep, h⟩ := Option.map_eq_some_iff.mp h
  cases h
  refine ⟨out.tasks id, ?_, ?_⟩
  · cases out <;> rfl
  · have hfresh' : (s.usageStore writes).fresh c = true := by cases c <;> exact hfresh
    have hstep' : logUsageStep (s.usageStore writes).clock (s.usageStore writes).log u c = _ :=
      hstep
    rw [usageReact, if_pos hfresh', hstep', Option.map_some]
    rfl

/-- Nothing logged. -/
def noUsage : Config UsageStore UsageLogging := ⟨⟨.empty, 0, [], []⟩, []⟩

/-- The entry of a recorded usage. -/
def usageEntry (w : Write Uuid) : UsageEntry := ⟨w.item, w.stamp⟩

/-- The usage has a timestamp in the window `(t - W, t]`. -/
def InWindow (t : ℕ) (w : Write Uuid) : Prop := t < w.stamp + windowInMilliseconds ∧ w.stamp ≤ t

instance (t : ℕ) (w : Write Uuid) : Decidable (InWindow t w) :=
  inferInstanceAs (Decidable (_ ∧ _))

/-- How many usages were recorded with a timestamp in the window. -/
def UsageStore.windowCount (s : UsageStore) : ℕ :=
  (s.writes.filter fun w => InWindow s.clock w).length

/-! ### What the log holds -/

/-- The log holds what a log that is trimmed when written holds, and expires a window
after its last write. -/
structure UsageStore.Sound (s : UsageStore) : Prop where
  timely : Timely s.writes s.clock
  entries : s.log.entries = (held windowInMilliseconds s.writes s.clock).map usageEntry
  expires : ∀ x, s.log.expiresAt = some x → x = lastTime 0 s.writes + windowInMilliseconds
  expired : s.log.expiresAt = none →
    s.writes = [] ∨ lastTime 0 s.writes + windowInMilliseconds ≤ s.clock
  drawn : ∀ w ∈ s.writes, w.item ∈ s.drawn

/-- The calls under way have read the clock before, and have drawn ids of their own. -/
structure UsageInv (s : Config UsageStore UsageLogging) : Prop where
  sound : s.store.Sound
  pending : ∀ now usageId, .multiExec now usageId ∈ s.pool →
    now ≤ s.store.clock ∧ usageId ∈ s.store.drawn
  nodup : (s.store.writes.map Write.item ++ s.pool.flatMap UsageLogging.usageIds).Nodup

/-- **A usage is recorded.** -/
theorem UsageStore.Sound.record {s : UsageStore} (h : s.Sound) {now : ℕ} {usageId : Uuid}
    (hnow : now ≤ s.clock) (hdrawn : usageId ∈ s.drawn)
    (hfresh : usageId ∉ s.writes.map Write.item) :
    UsageStore.Sound ⟨s.log.multiExec s.clock now usageId, s.clock, s.drawn,
      s.writes ++ [⟨s.clock, now, usageId⟩]⟩ where
  timely := h.timely.snoc hnow
  entries := by
    have hW : 0 < windowInMilliseconds := by decide
    have hheld : held windowInMilliseconds (s.writes ++ [⟨s.clock, now, usageId⟩]) s.clock = _ :=
      held_snoc hW s.writes ⟨s.clock, now, usageId⟩
    have hother : ∀ w ∈ held windowInMilliseconds s.writes s.clock, w.item ≠ usageId := by
      rintro w hw rfl
      exact hfresh (List.mem_map_of_mem ((held_sublist _ _ _).subset hw))
    show (s.log.multiExec s.clock now usageId).entries = _
    rw [UsageLog.entries_multiExec, h.entries, hheld, List.map_append, List.map_singleton]
    congr 1
    -- No entry has the id, and the two ways to say what is trimmed agree.
    rw [List.filter_map, List.filter_map, List.filter_filter]
    congr 1
    apply List.filter_congr
    intro w hw
    have hne : w.item ≠ usageId := hother w hw
    have hiff :
        (now : ℤ) - windowInMilliseconds < w.stamp ↔ now < w.stamp + windowInMilliseconds := by
      omega
    simp [usageEntry, hne, hiff]
  expires x hx := by
    rw [lastTime_snoc]
    exact (Option.some.inj hx).symm
  expired hnone := by cases hnone
  drawn w hw := by
    rcases List.mem_append.mp hw with hw | hw
    · exact h.drawn w hw
    · obtain rfl := List.mem_singleton.mp hw
      exact hdrawn

/-- **Time passes.** -/
theorem UsageStore.Sound.tick {s : UsageStore} (h : s.Sound) (ms : ℕ) :
    UsageStore.Sound { s with clock := s.clock + ms, log := s.log.lapse (s.clock + ms) } := by
  have hle : s.clock ≤ s.clock + ms := Nat.le_add_right _ _
  have htimely := h.timely.later hle
  rcases s.log.lapse_cases (s.clock + ms) with ⟨hlapse, hkept⟩ | ⟨hlapse, x, hx, hexpired⟩
  · rw [hlapse]
    refine ⟨htimely, ?_, h.expires, ?_, h.drawn⟩
    · show s.log.entries = _
      rw [h.entries]
      cases hexpires : s.log.expiresAt with
      | none =>
        -- The key is gone since a while, or was never written.
        rcases h.expired hexpires with hnil | hsilent
        · rw [hnil]
          rfl
        · rw [held_of_silence hsilent, held_of_silence (hsilent.trans hle)]
      | some x =>
        have hdue : s.clock + ms < lastTime 0 s.writes + windowInMilliseconds := by
          rw [← h.expires x hexpires]
          exact hkept x hexpires
        rw [held_later hle hdue]
    · intro hnone
      rcases h.expired hnone with hnil | hsilent
      · exact .inl hnil
      · exact .inr (hsilent.trans hle)
  · rw [hlapse]
    have hsilent : lastTime 0 s.writes + windowInMilliseconds ≤ s.clock + ms := by
      rw [← h.expires x hx]
      exact hexpired
    refine ⟨htimely, ?_, (fun y hy => by cases hy), fun _ => .inr hsilent, h.drawn⟩
    show ([] : List UsageEntry) = _
    rw [held_of_silence hsilent]
    rfl

/-! ### Steps -/

section Steps

variable {s : UsageStore} {u : UsageLogging} {pool pool' : List UsageLogging}

theorem UsageInv.perm (h : UsageInv ⟨s, pool⟩) (hperm : pool.Perm pool') : UsageInv ⟨s, pool'⟩ where
  sound := h.sound
  pending now usageId hmem := h.pending now usageId (hperm.mem_iff.mpr hmem)
  nodup := ((hperm.flatMap_right _).append_left _).nodup_iff.mp h.nodup

/-- `logUsage` is called. -/
theorem UsageInv.call (h : UsageInv ⟨s, pool⟩) : UsageInv ⟨s, .getUsageCount :: pool⟩ where
  sound := h.sound
  pending now usageId hmem := by
    rcases List.mem_cons.mp hmem with heq | hmem
    · cases heq
    · exact h.pending now usageId hmem
  nodup := h.nodup

/-- A call fails. -/
theorem UsageInv.fail (h : UsageInv ⟨s, u :: pool⟩) : UsageInv ⟨s, pool⟩ where
  sound := h.sound
  pending now usageId hmem := h.pending now usageId (List.mem_cons_of_mem _ hmem)
  nodup := by
    refine h.nodup.sublist (List.Sublist.append_left ?_ _)
    exact List.sublist_append_right _ _

/-- A call reads the clock, and draws an id. -/
theorem UsageInv.read (h : UsageInv ⟨s, .getUsageCount :: pool⟩) {usageId : Uuid}
    (hfresh : usageId ∉ s.drawn) :
    UsageInv ⟨{ s with drawn := usageId :: s.drawn }, .multiExec s.clock usageId :: pool⟩ where
  sound := by
    refine ⟨h.sound.timely, h.sound.entries, h.sound.expires, h.sound.expired, ?_⟩
    intro w hw
    exact List.mem_cons_of_mem _ (h.sound.drawn w hw)
  pending now id hmem := by
    rcases List.mem_cons.mp hmem with heq | hmem
    · obtain ⟨rfl, rfl⟩ := UsageLogging.multiExec.inj heq
      exact ⟨le_rfl, List.mem_cons_self⟩
    · obtain ⟨hnow, hdrawn⟩ := h.pending now id (List.mem_cons_of_mem _ hmem)
      exact ⟨hnow, List.mem_cons_of_mem _ hdrawn⟩
  nodup := by
    refine List.perm_middle.nodup_iff.mpr (List.nodup_cons.mpr ⟨?_, h.nodup⟩)
    refine UsageLogging.notMem_of_fresh ?_ ?_ hfresh
    · intro id hid
      obtain ⟨w, hw, rfl⟩ := List.mem_map.mp hid
      exact h.sound.drawn w hw
    · intro now id hmem
      exact (h.pending now id (List.mem_cons_of_mem _ hmem)).2

/-- A usage is recorded: its id moves from the calls under way to the usages recorded. -/
theorem UsageInv.record {now : ℕ} {usageId : Uuid}
    (h : UsageInv ⟨s, .multiExec now usageId :: pool⟩) :
    UsageInv ⟨⟨s.log.multiExec s.clock now usageId, s.clock, s.drawn,
      s.writes ++ [⟨s.clock, now, usageId⟩]⟩, pool⟩ where
  sound := by
    obtain ⟨hnow, hdrawn⟩ := h.pending now usageId List.mem_cons_self
    refine h.sound.record hnow hdrawn ?_
    intro hmem
    have hnodup := h.nodup
    rw [List.nodup_append'] at hnodup
    exact hnodup.2.2 hmem (List.mem_append_left _ List.mem_cons_self)
  pending now' id hmem := h.pending now' id (List.mem_cons_of_mem _ hmem)
  nodup := by
    show ((s.writes ++ [_]).map Write.item ++ pool.flatMap UsageLogging.usageIds).Nodup
    rw [List.map_append, List.append_assoc]
    exact h.nodup

/-- Time passes. -/
theorem UsageInv.tick (h : UsageInv ⟨s, pool⟩) (ms : ℕ) :
    UsageInv ⟨{ s with clock := s.clock + ms, log := s.log.lapse (s.clock + ms) }, pool⟩ where
  sound := h.sound.tick ms
  pending now usageId hmem := by
    obtain ⟨hnow, hdrawn⟩ := h.pending now usageId hmem
    exact ⟨hnow.trans (Nat.le_add_right _ _), hdrawn⟩
  nodup := h.nodup

end Steps

/-! ### Runs -/

/-- What one segment of `logUsage` does: it fails; it reads the clock and draws an id; it
records. -/
theorem usageReact_cases {s s' : UsageStore} {u : UsageLogging} {c : Choice}
    {ts : List UsageLogging} (h : usageReact s u c = some (s', ts)) :
    (s' = s ∧ ts = []) ∨
      (∃ usageId, usageId ∉ s.drawn ∧ u = .getUsageCount ∧
        s' = { s with drawn := usageId :: s.drawn } ∧ ts = [.multiExec s.clock usageId]) ∨
      ∃ now usageId, u = .multiExec now usageId ∧ ts = [] ∧ s' =
        ⟨s.log.multiExec s.clock now usageId, s.clock, s.drawn,
          s.writes ++ [⟨s.clock, now, usageId⟩]⟩ := by
  unfold usageReact at h
  split_ifs at h with hfresh
  obtain ⟨⟨log, out⟩, hstep, h⟩ := Option.map_eq_some_iff.mp h
  cases h
  cases fires_of_logUsageStep hstep with
  | fails =>
    refine .inl ⟨?_, rfl⟩
    have hnone : u.writes s.clock .fail = [] := by cases u <;> rfl
    rw [hnone, List.append_nil]
    rfl
  | reads usageId =>
    refine .inr (.inl ⟨usageId, of_decide_eq_true hfresh, rfl, ?_, rfl⟩)
    show (⟨s.log, s.clock, usageId :: s.drawn, s.writes ++ []⟩ : UsageStore) = _
    rw [List.append_nil]
  | records now usageId => exact .inr (.inr ⟨now, usageId, rfl, rfl, rfl⟩)

/-- One step keeps the invariant. -/
theorem usageInv_step {s s' : Config UsageStore UsageLogging} {a : Act Choice UsageAct}
    (hI : UsageInv s) (hs : usageWindow.step s a = some s') : UsageInv s' := by
  obtain ⟨store', pool'⟩ := s'
  rcases Machine.step_cases hs with ⟨i, c, u, rest, ts, -, hr⟩ | ⟨e, ts, -, henv, hpool⟩
  · have hrun : UsageInv ⟨s.store, u :: rest⟩ := hI.perm hr.pool
    obtain rfl : pool' = rest ++ ts := hr.pool'
    rcases usageReact_cases hr.react with ⟨hstore, rfl⟩ | ⟨usageId, hfresh, rfl, hstore, rfl⟩ |
      ⟨now, usageId, rfl, rfl, hstore⟩
    · obtain rfl : store' = s.store := hstore
      rw [List.append_nil]
      exact hrun.fail
    · obtain rfl : store' = _ := hstore
      exact (hrun.read hfresh).perm (List.perm_append_singleton _ _).symm
    · obtain rfl : store' = _ := hstore
      rw [List.append_nil]
      exact hrun.record
  · obtain rfl : pool' = s.pool ++ ts := hpool
    cases e with
    | logUsage =>
      obtain ⟨rfl, rfl⟩ := Prod.mk.inj (Option.some.inj henv)
      exact hI.call.perm (List.perm_append_singleton _ _).symm
    | getIsRateLimited =>
      obtain ⟨rfl, rfl⟩ := Prod.mk.inj (Option.some.inj henv)
      rw [List.append_nil]
      exact hI
    | tick ms =>
      obtain ⟨rfl, rfl⟩ := Prod.mk.inj (Option.some.inj henv)
      rw [List.append_nil]
      exact hI.tick ms

theorem usageInv_noUsage : UsageInv noUsage where
  sound := by
    refine ⟨Timely.nil 0, rfl, ?_, fun _ => .inl rfl, ?_⟩
    · intro x hx
      cases hx
    · intro w hw
      cases hw
  pending now usageId hmem := by cases hmem
  nodup := List.nodup_nil

/-- **The log is sound in every run**, whatever overlaps. -/
theorem sound_of_run {s : Config UsageStore UsageLogging}
    {tr : List (Config UsageStore UsageLogging × Act Choice UsageAct)}
    (h : Run usageWindow.step noUsage tr s) : UsageInv s :=
  h.invariant usageInv_noUsage usageInv_step

/-! ### What a check sees -/

/-- Nothing recorded has a timestamp to come, so that the window is what is not old. -/
theorem UsageStore.Sound.filter_inWindow {s : UsageStore} (h : s.Sound) :
    s.writes.filter (fun w => InWindow s.clock w)
      = s.writes.filter (fun w => s.clock < w.stamp + windowInMilliseconds) := by
  apply List.filter_congr
  intro w hw
  obtain ⟨hstamp, htime⟩ := h.timely.stamped w hw
  rw [decide_eq_decide]
  constructor
  · intro hin
    exact hin.1
  · intro hlt
    exact ⟨hlt, hstamp.trans htime⟩

/-- **What is counted**: the window, and the older usages that nothing has cleared. -/
theorem UsageStore.Sound.getUsageCount_eq {s : UsageStore} (h : s.Sound) :
    s.log.getUsageCount
      = s.windowCount + (uncleared windowInMilliseconds s.writes s.clock).length := by
  show s.log.entries.length = _
  rw [h.entries, List.length_map, length_held h.timely, UsageStore.windowCount, h.filter_inWindow]

/-- A usage of the window is in the log. -/
theorem UsageStore.Sound.mem_entries {s : UsageStore} (h : s.Sound) {w : Write Uuid}
    (hw : w ∈ s.writes) (hin : InWindow s.clock w) : usageEntry w ∈ s.log.entries := by
  have hmem : w ∈ (held windowInMilliseconds s.writes s.clock).filter
      (fun w => s.clock < w.stamp + windowInMilliseconds) := by
    rw [filter_held h.timely]
    exact List.mem_filter.mpr ⟨hw, decide_eq_true hin.1⟩
  rw [h.entries]
  exact List.mem_map_of_mem (List.mem_of_mem_filter hmem)

/-- Every entry has been recorded, and not after now. -/
theorem UsageStore.Sound.score_le {s : UsageStore} (h : s.Sound) {e : UsageEntry}
    (he : e ∈ s.log.entries) : e.score ≤ s.clock := by
  rw [h.entries] at he
  obtain ⟨w, hw, rfl⟩ := List.mem_map.mp he
  obtain ⟨hstamp, htime⟩ := h.timely.stamped w ((held_sublist _ _ _).subset hw)
  exact hstamp.trans htime

/-- When no entry is old, the entries are the window. -/
theorem UsageStore.Sound.entries_eq_window {s : UsageStore} (h : s.Sound)
    (hyoung : ∀ e ∈ s.log.entries, s.clock < e.score + windowInMilliseconds) :
    s.log.entries = (s.writes.filter fun w => InWindow s.clock w).map usageEntry := by
  rw [h.filter_inWindow, ← filter_held h.timely, h.entries]
  congr 1
  symm
  apply List.filter_eq_self.mpr
  intro w hw
  apply decide_eq_true
  apply hyoung (usageEntry w)
  rw [h.entries]
  exact List.mem_map_of_mem hw

/-- Recording a usage with timestamp `now` leaves no entry that was old then. -/
theorem UsageLog.lt_of_mem_multiExec {log : UsageLog} {clock now : ℕ} {usageId : Uuid}
    {e : UsageEntry} (he : e ∈ (log.multiExec clock now usageId).entries) :
    now < e.score + windowInMilliseconds := by
  have hW : 0 < windowInMilliseconds := by decide
  rw [UsageLog.entries_multiExec, List.mem_append] at he
  rcases he with he | he
  · obtain ⟨hmem, -⟩ := List.mem_filter.mp he
    have hkept := of_decide_eq_true (List.mem_filter.mp hmem).2
    omega
  · obtain rfl := List.mem_singleton.mp he
    show now < now + windowInMilliseconds
    omega

/-- The step that records a usage. -/
theorem store_of_records {s s' : Config UsageStore UsageLogging} {i now : ℕ} {usageId : Uuid}
    (hi : s.pool[i]? = some (.multiExec now usageId))
    (hs : usageWindow.step s (.run i .proceed) = some s') :
    s'.store = ⟨s.store.log.multiExec s.store.clock now usageId, s.store.clock, s.store.drawn,
      s.store.writes ++ [⟨s.store.clock, now, usageId⟩]⟩ := by
  have hr : usageWindow.react s.store (.multiExec now usageId) .proceed = some (_, []) := rfl
  rw [Machine.step_run hi hr] at hs
  rw [← Option.some.inj hs]
  rfl

/-- **The limiter never under-counts.**  Whatever overlaps, and whatever the times: the
log has all usages of the window, so that a check answers `true` as soon as they reach the
limit.  Right after a usage of time `now` is recorded nothing is left that was old then;
if no time has passed since it read the clock, nothing but the window is left. -/
theorem limiter_never_undercounts {s : Config UsageStore UsageLogging}
    {tr : List (Config UsageStore UsageLogging × Act Choice UsageAct)}
    (h : Run usageWindow.step noUsage tr s) :
    (∀ w ∈ s.store.writes, InWindow s.store.clock w → usageEntry w ∈ s.store.log.entries) ∧
      (∀ limit, limit ≤ s.store.windowCount → s.store.log.getIsRateLimitedAsync limit = true) ∧
      ∀ i now usageId s', s.pool[i]? = some (.multiExec now usageId) →
        usageWindow.step s (.run i .proceed) = some s' →
          (∀ e ∈ s'.store.log.entries,
            now < e.score + windowInMilliseconds ∧ e.score ≤ s'.store.clock) ∧
          (now = s'.store.clock →
            s'.store.log.entries
                = (s'.store.writes.filter fun w => InWindow s'.store.clock w).map usageEntry ∧
              s'.store.log.getUsageCount = s'.store.windowCount) := by
  have hsound := (sound_of_run h).sound
  refine ⟨fun w hw hin => hsound.mem_entries hw hin, ?_, ?_⟩
  · intro limit hlimit
    apply decide_eq_true
    rw [hsound.getUsageCount_eq]
    omega
  · intro i now usageId s' hi hs
    have hsound' := (sound_of_run (h.snoc hs)).sound
    have hyoung : ∀ e ∈ s'.store.log.entries, now < e.score + windowInMilliseconds := by
      rw [store_of_records hi hs]
      intro e he
      exact UsageLog.lt_of_mem_multiExec he
    refine ⟨fun e he => ⟨hyoung e he, hsound'.score_le he⟩, ?_⟩
    rintro rfl
    have hentries := hsound'.entries_eq_window hyoung
    refine ⟨hentries, ?_⟩
    show s'.store.log.entries.length = _
    rw [hentries, List.length_map]
    rfl

/-- Two usages, at times 0 and 1; a third reads the clock just before the first leaves the
window, and is recorded just after. -/
def lateRecord : List (Act Choice UsageAct) :=
  [.env .logUsage, .run 0 (.draw ⟨1⟩), .run 0 .proceed,
   .env (.tick 1), .env .logUsage, .run 0 (.draw ⟨2⟩), .run 0 .proceed,
   .env (.tick (windowInMilliseconds - 2)), .env .logUsage, .run 0 (.draw ⟨3⟩),
   .env (.tick 1), .run 0 .proceed]

theorem limiter_never_undercounts_lateRecord :
    ∃ tr s, Run usageWindow.step noUsage tr s ∧ tr.map Prod.snd = lateRecord ∧
      (∀ w ∈ s.store.writes, InWindow s.store.clock w → usageEntry w ∈ s.store.log.entries) ∧
      s.store.windowCount = 2 ∧ s.store.log.getIsRateLimitedAsync 2 = true := by
  have hexec : (exec usageWindow.step noUsage lateRecord).any
      (fun s => s.store.windowCount = 2) = true := by decide +kernel
  obtain ⟨tr, s, hrun, htr, hcount⟩ := exists_run_of_exec lateRecord hexec
  obtain ⟨hentries, hlimited, -⟩ := limiter_never_undercounts hrun
  have hcount : s.store.windowCount = 2 := of_decide_eq_true hcount
  exact ⟨tr, s, hrun, htr, hentries, hcount, hlimited 2 hcount.ge⟩

/-- **A usage recorded late** leaves the one that has just left the window: the log holds
three usages, and only two are of the last day. -/
theorem late_record :
    ∃ tr s s', Run usageWindow.step noUsage tr s ∧
      tr.map Prod.snd ++ [.run 0 .proceed] = lateRecord ∧
      -- No other call is under way.
      s.pool = [.multiExec (windowInMilliseconds - 1) ⟨3⟩] ∧
      usageWindow.step s (.run 0 .proceed) = some s' ∧
      s'.store.log.getUsageCount = 3 ∧ s'.store.windowCount = 2 := by
  have hexec : (exec usageWindow.step noUsage lateRecord.dropLast).any
      (fun s => s.pool = [.multiExec (windowInMilliseconds - 1) ⟨3⟩] ∧
        (usageWindow.step s (.run 0 .proceed)).any fun s' =>
          s'.store.log.getUsageCount = 3 ∧ s'.store.windowCount = 2) = true := by decide +kernel
  obtain ⟨tr, s, hrun, htr, hp⟩ := exists_run_of_exec lateRecord.dropLast hexec
  obtain ⟨hpool, hnext⟩ := of_decide_eq_true hp
  obtain ⟨s', hs', hcounts⟩ := (Option.any_eq_true _ _).mp hnext
  refine ⟨tr, s, s', hrun, ?_, hpool, hs', of_decide_eq_true hcounts⟩
  rw [htr]
  rfl

/-! ### Below the limit -/

/-- **A check answers `false` below the limit** throughout a run just in case the usages
that have left the window, but that nothing has cleared, never make up for the missing
ones. -/
theorem throttles_only_full_iff (limit : ℕ) {s : Config UsageStore UsageLogging}
    {tr : List (Config UsageStore UsageLogging × Act Choice UsageAct)}
    (h : Run usageWindow.step noUsage tr s) :
    (∀ t ∈ visited tr s, t.store.windowCount < limit →
        t.store.log.getIsRateLimitedAsync limit = false) ↔
      ∀ t ∈ visited tr s, t.store.windowCount < limit →
        t.store.windowCount + (uncleared windowInMilliseconds t.store.writes t.store.clock).length
          < limit := by
  have hcheck : ∀ t ∈ visited tr s, (t.store.log.getIsRateLimitedAsync limit = false ↔
      t.store.windowCount + (uncleared windowInMilliseconds t.store.writes t.store.clock).length
        < limit) := by
    intro t ht
    obtain ⟨tr₁, -, -, hrun, -⟩ := h.split ht
    rw [← (sound_of_run hrun).sound.getUsageCount_eq, UsageLog.getIsRateLimitedAsync,
      decide_eq_false_iff_not, Nat.not_le]
  constructor
  · intro hall t ht hlt
    exact (hcheck t ht).mp (hall t ht hlt)
  · intro hall t ht hlt
    exact (hcheck t ht).mpr (hall t ht hlt)

/-- Two usages, at time 0 and at the end of the first day; then the first one leaves the
window, and a check is made. -/
def oldUsage : List (Act Choice UsageAct) :=
  [.env .logUsage, .run 0 (.draw ⟨1⟩), .run 0 .proceed,
   .env (.tick (windowInMilliseconds - 1)), .env .logUsage, .run 0 (.draw ⟨2⟩), .run 0 .proceed,
   .env (.tick 1), .env .getIsRateLimited]

theorem throttles_only_full_iff_oldUsage :
    ∃ tr s, Run usageWindow.step noUsage tr s ∧ tr.map Prod.snd = oldUsage ∧
      ((∀ t ∈ visited tr s, t.store.windowCount < 3 →
          t.store.log.getIsRateLimitedAsync 3 = false) ↔
        ∀ t ∈ visited tr s, t.store.windowCount < 3 →
          t.store.windowCount
            + (uncleared windowInMilliseconds t.store.writes t.store.clock).length < 3) := by
  have hexec : (exec usageWindow.step noUsage oldUsage).any (fun _ => true) = true := by
    decide +kernel
  obtain ⟨tr, s, hrun, htr, -⟩ := exists_run_of_exec oldUsage hexec
  exact ⟨tr, s, hrun, htr, throttles_only_full_iff 3 hrun⟩

/-- **Throttled below the limit**: the limit is 2, one usage was recorded in the last day,
and the check answers `true`. -/
theorem throttled_below_limit :
    ∃ tr s, Run usageWindow.step noUsage tr s ∧ tr.map Prod.snd = oldUsage ∧ s.pool = [] ∧
      s.store.windowCount = 1 ∧ s.store.log.getIsRateLimitedAsync 2 = true := by
  have hexec : (exec usageWindow.step noUsage oldUsage).any (fun s => s.pool = [] ∧
      s.store.windowCount = 1 ∧ s.store.log.getIsRateLimitedAsync 2 = true) = true := by
    decide +kernel
  obtain ⟨tr, s, hrun, htr, hp⟩ := exists_run_of_exec oldUsage hexec
  exact ⟨tr, s, hrun, htr, of_decide_eq_true hp⟩

end SwapiService
