import SwapiService.Lib.SlidingWindow
import SwapiService.TrafficController

/-!
# What the usage log counts

The log is written after the events it counts, and it forgets.  Neither does harm: a
usage gets the time at which it is logged, which is later than that of the event, so
that it is trimmed, or deleted with the key, only when the event has left the window.

## Main definitions

* `UsageLogging.usageIds`, `UsageLogging.reaches` — what a usage still to be logged will
  be in the log.
* `Logged` — the log and the usages still to be logged account for the events.

## Main results

* `Logged.emit`, `Logged.read`, `Logged.record`, `Logged.tick` — what keeps it.
* `Logged.recent_le` — the log alone counts the recent events when no usage is due.
-/

namespace SwapiService

open SlidingWindow

/-- The id under which a usage will be logged. -/
def UsageLogging.usageIds : UsageLogging → List Uuid
  | .getUsageCount => []
  | .multiExec _ usageId => [usageId]

/-- The usage may be logged with a time of `t` or later. -/
def UsageLogging.reaches (t : ℕ) : UsageLogging → Bool
  | .getUsageCount => true
  | .multiExec now _ => t ≤ now

/-- A fresh id is neither among ids that were drawn, nor with a usage that has drawn its
own. -/
theorem UsageLogging.notMem_of_fresh {ids drawn : List Uuid} {us : List UsageLogging} {id : Uuid}
    (hids : ∀ x ∈ ids, x ∈ drawn) (hus : ∀ now x, .multiExec now x ∈ us → x ∈ drawn)
    (hfresh : id ∉ drawn) : id ∉ ids ++ us.flatMap usageIds := by
  intro hmem
  rcases List.mem_append.mp hmem with hmem | hmem
  · exact hfresh (hids id hmem)
  · obtain ⟨u, hu, hid⟩ := List.mem_flatMap.mp hmem
    cases u with
    | getUsageCount => cases hid
    | multiExec now x =>
      obtain rfl := List.mem_singleton.mp hid
      exact hfresh (hus now _ hu)

/-- **The log misses nothing for good**: in every window that is still open, what was
emitted is in the log or still to be logged. -/
structure Logged (log : UsageLog) (clock : ℕ) (drawn : List Uuid) (times : List ℕ)
    (us : List UsageLogging) : Prop where
  past : ∀ x ∈ times, x ≤ clock
  fixed : ∀ now usageId, .multiExec now usageId ∈ us → now ≤ clock ∧ usageId ∈ drawn
  entries : ∀ e ∈ log.entries, e.usageId ∈ drawn ∧ e.score ≤ clock ∧
    ∀ x, log.expiresAt = some x → e.score + windowInMilliseconds ≤ x
  nodup : (log.entries.map UsageEntry.usageId ++ us.flatMap UsageLogging.usageIds).Nodup
  counts : ∀ t, clock < t + windowInMilliseconds →
    since times t ≤ log.entries.countP (fun e => t ≤ e.score) + us.countP (UsageLogging.reaches t)

section Logged

variable {log : UsageLog} {clock : ℕ} {drawn : List Uuid} {times : List ℕ}
  {us us' : List UsageLogging}

theorem Logged.perm (h : Logged log clock drawn times us) (hperm : us.Perm us') :
    Logged log clock drawn times us' := by
  refine ⟨h.past, fun now id hmem => h.fixed now id (hperm.mem_iff.mpr hmem), h.entries, ?_, ?_⟩
  · exact ((hperm.flatMap_right _).append_left _).nodup_iff.mp h.nodup
  · intro t ht
    rw [← hperm.countP_eq]
    exact h.counts t ht

/-- A `FETCH` event is emitted, and its usage is owed. -/
theorem Logged.emit (h : Logged log clock drawn times us) :
    Logged log clock drawn (times ++ [clock]) (.getUsageCount :: us) := by
  refine ⟨?_, ?_, h.entries, h.nodup, ?_⟩
  · intro x hx
    rcases List.mem_append.mp hx with hx | hx
    · exact h.past x hx
    · obtain rfl := List.mem_singleton.mp hx
      exact le_rfl
  · intro now id hmem
    exact h.fixed now id ((List.mem_cons.mp hmem).resolve_left (fun heq => nomatch heq))
  · intro t ht
    have hbefore := h.counts t ht
    rw [List.countP_cons_of_pos rfl, since_append, since_singleton]
    split_ifs <;> omega

/-- The time and the id of a usage are fixed. -/
theorem Logged.read {usageId : Uuid} (h : Logged log clock drawn times (.getUsageCount :: us))
    (hfresh : usageId ∉ drawn) :
    Logged log clock (usageId :: drawn) times (.multiExec clock usageId :: us) := by
  have hfixed := fun now id hmem => h.fixed now id (List.mem_cons_of_mem _ hmem)
  refine ⟨h.past, ?_, ?_, ?_, ?_⟩
  · intro now id hmem
    -- The usage that has just read the clock, or another.
    rcases List.mem_cons.mp hmem with heq | hmem
    · cases heq
      exact ⟨le_rfl, List.mem_cons_self⟩
    · obtain ⟨hnow, hdrawn⟩ := hfixed now id hmem
      exact ⟨hnow, List.mem_cons_of_mem _ hdrawn⟩
  · intro e he
    obtain ⟨hdrawn, hrest⟩ := h.entries e he
    exact ⟨List.mem_cons_of_mem _ hdrawn, hrest⟩
  · -- The id is fresh, so neither an entry nor another usage has it.
    refine (List.perm_middle.nodup_iff).mpr (List.nodup_cons.mpr ⟨?_, h.nodup⟩)
    refine UsageLogging.notMem_of_fresh ?_ (fun now id hmem => (hfixed now id hmem).2) hfresh
    intro id hid
    obtain ⟨e, he, rfl⟩ := List.mem_map.mp hid
    exact (h.entries e he).1
  · intro t ht
    have hbefore := h.counts t ht
    rw [List.countP_cons_of_pos rfl] at hbefore
    by_cases hnow : t ≤ clock
    · have hreaches : (UsageLogging.multiExec clock usageId).reaches t = true := decide_eq_true hnow
      rw [List.countP_cons_of_pos hreaches]
      exact hbefore
    · -- Nothing has been emitted since `t`, which is still to come.
      have hzero : since times t = 0 := by
        unfold since
        rw [List.countP_eq_zero]
        intro x hx
        have hpast := h.past x hx
        rw [decide_eq_true_eq]
        omega
      rw [hzero]
      exact Nat.zero_le _

/-- Counting what a filter lets pass, when it keeps all that counts. -/
theorem countP_filter_of_imp {α : Type*} {p q : α → Bool} {l : List α}
    (h : ∀ x ∈ l, p x = true → q x = true) : (l.filter q).countP p = l.countP p := by
  rw [List.countP_filter]
  refine List.countP_congr fun x hx => ?_
  rw [Bool.and_eq_true]
  exact ⟨fun hpq => hpq.1, fun hp => ⟨hp, h x hx hp⟩⟩

/-- The entries after a usage is recorded. -/
theorem UsageLog.entries_multiExec (log : UsageLog) (clock now : ℕ) (usageId : Uuid) :
    (log.multiExec clock now usageId).entries
      = (log.entries.filter fun e => (now : ℤ) - windowInMilliseconds < e.score).filter
          (fun e => e.usageId ≠ usageId) ++ [⟨usageId, now⟩] := rfl

/-- Recording a usage keeps all entries that a window still open can see, and adds one. -/
theorem UsageLog.countP_multiExec {now t : ℕ} {usageId : Uuid}
    (hfresh : ∀ e ∈ log.entries, e.usageId ≠ usageId) (ht : now < t + windowInMilliseconds) :
    (log.multiExec clock now usageId).entries.countP (fun e => t ≤ e.score)
      = log.entries.countP (fun e => t ≤ e.score) + if t ≤ now then 1 else 0 := by
  rw [entries_multiExec, List.countP_append, List.countP_singleton, countP_filter_of_imp,
    countP_filter_of_imp]
  · simp only [decide_eq_true_eq]
  · intro e _ hscore
    rw [decide_eq_true_eq] at hscore ⊢
    omega
  · intro e he _
    exact decide_eq_true (hfresh e (List.mem_of_mem_filter he))

/-- The usage is recorded. -/
theorem Logged.record {now : ℕ} {usageId : Uuid}
    (h : Logged log clock drawn times (.multiExec now usageId :: us)) :
    Logged (log.multiExec clock now usageId) clock drawn times us := by
  obtain ⟨hnow, hdrawn⟩ := h.fixed now usageId List.mem_cons_self
  have hnodup : (usageId :: (log.entries.map UsageEntry.usageId ++
      us.flatMap UsageLogging.usageIds)).Nodup := List.perm_middle.nodup_iff.mp h.nodup
  rw [List.nodup_cons, List.mem_append] at hnodup
  obtain ⟨hfresh, hnodup⟩ := hnodup
  have hentries : ∀ e ∈ log.entries, e.usageId ≠ usageId := by
    rintro e he rfl
    exact hfresh (.inl (List.mem_map_of_mem he))
  refine ⟨h.past, ?_, ?_, ?_, ?_⟩
  · intro now' id hmem
    exact h.fixed now' id (List.mem_cons_of_mem _ hmem)
  · intro e he
    have hexpires : ∀ x, (log.multiExec clock now usageId).expiresAt = some x →
        x = clock + windowInMilliseconds := by
      intro x hx
      exact (Option.some.inj hx).symm
    rw [UsageLog.entries_multiExec, List.mem_append, List.mem_singleton] at he
    -- The expiry is set anew, a window from now, and no entry is newer than now.
    rcases he with he | rfl
    · have hold := List.mem_of_mem_filter (List.mem_of_mem_filter he)
      obtain ⟨hdrawn, hscore, -⟩ := h.entries e hold
      refine ⟨hdrawn, hscore, fun x hx => ?_⟩
      rw [hexpires x hx]
      omega
    · refine ⟨hdrawn, hnow, fun x hx => ?_⟩
      rw [hexpires x hx]
      show now + windowInMilliseconds ≤ _
      omega
  · -- The entries that are left, and the new one in place of the usage.
    rw [UsageLog.entries_multiExec, List.map_append, List.append_assoc, List.map_singleton,
      List.singleton_append]
    refine List.perm_middle.nodup_iff.mpr (List.nodup_cons.mpr ⟨?_, ?_⟩)
    · intro hmem
      rcases List.mem_append.mp hmem with hmem | hmem
      · obtain ⟨e, he, hid⟩ := List.mem_map.mp hmem
        exact hentries e (List.mem_of_mem_filter (List.mem_of_mem_filter he)) hid
      · exact hfresh (.inr hmem)
    · refine hnodup.sublist (List.Sublist.append_right (List.Sublist.map _ ?_) _)
      exact List.filter_sublist.trans List.filter_sublist
  · -- The trimmed entries are too old for a window that is still open.
    intro t ht
    have hbefore := h.counts t ht
    rw [List.countP_cons] at hbefore
    rw [UsageLog.countP_multiExec hentries (by omega)]
    simp only [UsageLogging.reaches, decide_eq_true_eq] at hbefore ⊢
    omega

/-- The key is kept, or its time has come. -/
theorem UsageLog.lapse_cases (log : UsageLog) (clock : ℕ) :
    log.lapse clock = log ∧ (∀ x, log.expiresAt = some x → clock < x) ∨
      log.lapse clock = .empty ∧ ∃ x, log.expiresAt = some x ∧ x ≤ clock := by
  unfold lapse
  split
  · next x hx =>
    split_ifs with hle
    · exact .inr ⟨rfl, x, hx, hle⟩
    · refine .inl ⟨rfl, ?_⟩
      intro y hy
      rw [hx] at hy
      obtain rfl := Option.some.inj hy
      omega
  · next hnone =>
    refine .inl ⟨rfl, ?_⟩
    intro y hy
    rw [hnone] at hy
    cases hy

/-- Time passes. -/
theorem Logged.tick (h : Logged log clock drawn times us) {clock' : ℕ} (hle : clock ≤ clock') :
    Logged (log.lapse clock') clock' drawn times us := by
  have hpast : ∀ x ∈ times, x ≤ clock' := fun x hx => (h.past x hx).trans hle
  have hfixed : ∀ now usageId, .multiExec now usageId ∈ us → now ≤ clock' ∧ usageId ∈ drawn :=
    fun now usageId hmem => And.imp_left (fun hnow => hnow.trans hle) (h.fixed now usageId hmem)
  rcases log.lapse_cases clock' with ⟨hlapse, -⟩ | ⟨hlapse, x, hx, hexpired⟩
  · rw [hlapse]
    refine ⟨hpast, hfixed, fun e he => ?_, h.nodup, fun t ht => h.counts t (by omega)⟩
    obtain ⟨hdrawn, hscore, hexpires⟩ := h.entries e he
    exact ⟨hdrawn, hscore.trans hle, hexpires⟩
  · -- The key is deleted, and no window that is still open could see an entry of it.
    rw [hlapse]
    refine ⟨hpast, hfixed, (fun e he => nomatch he), ?_, fun t ht => ?_⟩
    · exact h.nodup.sublist (List.sublist_append_right _ _)
    · have hzero : log.entries.countP (fun e => t ≤ e.score) = 0 := by
        rw [List.countP_eq_zero]
        intro e he
        have hexpires := (h.entries e he).2.2 x hx
        rw [decide_eq_true_eq]
        omega
      have hbefore := h.counts t (by omega)
      rw [hzero] at hbefore
      exact hbefore

/-- With no usage still to be logged, the log counts all recent events. -/
theorem Logged.recent_le (h : Logged log clock drawn times []) :
    recent windowInMilliseconds clock times ≤ log.zcard := by
  have hcounts := h.counts (clock + 1 - windowInMilliseconds) (by omega)
  rw [List.countP_nil, Nat.add_zero] at hcounts
  exact recent_le_since.trans (hcounts.trans List.countP_le_length)

end Logged

end SwapiService
