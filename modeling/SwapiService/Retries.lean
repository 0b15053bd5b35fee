import SwapiService.Backlog
import SwapiService.Lib.Pacing

/-!
# Once a day

A request that finds the limit reached is put off for a day, and then checked again.  The
scheduler puts it off, and the processor of the queue, and neither knows what the other
has done.  Even so a request is put off once a day at most: it is in one place at a time,
and until its day is over that is the queue.

## Main definitions

* `Task.readyAt` — a job is ready when it is due, everything else always.
* `Reaction.putsOff` — the request is put on the queue.
* `pacing` — the pace of the requests.
* `putOffs` — when a request was put off.

## Main results

* `put_off_once_a_day` — a day passes between two of these, and after the last one
  before the request is anywhere but on the queue.
-/

namespace SwapiService

open TaskPool Transition

/-- The time a task is ready. -/
def Task.readyAt : Task → ℕ
  | .job j => j.due
  | _ => 0

/-- The request is put on the queue, by the scheduler or by the processor. -/
def Reaction.putsOff (id : Uuid) (r : Reaction Store Task Choice) : Bool :=
  match r.task, r.choice with
  | .scheduler ⟨dto, .answered true⟩, .proceed => dto.id = id
  | .processor ⟨dto, .answered true⟩, .proceed => dto.id = id
  | _, _ => false

/-- The two ways to be put off. -/
theorem putsOff_iff {id : Uuid} {s : Store} {t : Task} {c : Choice} :
    Reaction.putsOff id ⟨s, t, c⟩ = true ↔ c = .proceed ∧ ∃ dto : SubqueryDto, dto.id = id ∧
      (t = .scheduler ⟨dto, .answered true⟩ ∨ t = .processor ⟨dto, .answered true⟩) := by
  constructor
  · intro h
    unfold Reaction.putsOff at h
    split at h
    · next dto ht hc => exact ⟨hc, dto, of_decide_eq_true h, .inl ht⟩
    · next dto ht hc => exact ⟨hc, dto, of_decide_eq_true h, .inr ht⟩
    · cases h
  · rintro ⟨rfl, dto, rfl, rfl | rfl⟩
    · exact decide_eq_true rfl
    · exact decide_eq_true rfl

section Reactions

variable {cfg : Settings} {s s' : Store} {t : Task} {c : Choice} {ts : List Task} {id : Uuid}

/-- Only tasks that are ready react. -/
theorem Reacts.readyAt_le (h : Reacts cfg s t c s' ts) : t.readyAt ≤ s.clock := by
  cases t with
  | job j => exact h.due_of_job
  | _ => exact Nat.zero_le _

/-- **A request that is put off is on the queue for a day**, and nowhere else. -/
theorem Reacts.eq_job_of_putsOff (h : Reacts cfg s t c s' ts)
    (hput : Reaction.putsOff id ⟨s, t, c⟩ = true) :
    ∃ dto, ts = [.job ⟨dto, s.clock + requestDelay⟩] := by
  obtain ⟨rfl, dto, -, rfl | rfl⟩ := putsOff_iff.mp hput
  · cases h with
    | scheduler h =>
      cases h with
      | queues => exact ⟨dto, rfl⟩
  · cases h with
    | processor h =>
      cases h with
      | queues => exact ⟨dto, rfl⟩

end Reactions

/-- Nothing from outside forgets a drawn id. -/
theorem Acts.drawn {s s' : Store} {e : EnvAct} {ts : List Task} (h : Acts s e s' ts) :
    s.drawn ⊆ s'.drawn := by
  cases h with
  | create dto ids queryId => exact List.subset_append_right _ _
  | _ => exact List.Subset.refl _

/-- **The pace of the requests.** -/
def pacing (cfg : Settings) : Pacing (discipline cfg) where
  clock := Store.clock
  ready := Task.readyAt
  period := requestDelay
  isTurn := Reaction.putsOff
  react_clock hr := Nat.le_of_eq (reacts_of_react hr).clock_eq.symm
  env_clock henv := (acts_of_environment henv).usage_cases.1
  react_used hr hk := (reacts_of_react hr).drawn hk
  env_used henv hk := (acts_of_environment henv).drawn hk
  react_ready hr := (reacts_of_react hr).readyAt_le
  turn_owned hput := by
    obtain ⟨-, dto, rfl, rfl | rfl⟩ := putsOff_iff.mp hput
    · exact List.mem_cons_self
    · exact List.mem_cons_self
  turn_waits hr hput u hu _ := by
    obtain ⟨dto, rfl⟩ := (reacts_of_react hr).eq_job_of_putsOff hput
    obtain rfl := List.mem_singleton.mp hu
    exact Nat.le_refl _

/-- When a request was put off. -/
def putOffs (tr : List (Sys × Act Choice EnvAct)) (id : Uuid) : List ℕ :=
  ((reactions tr).filter (Reaction.putsOff id)).map fun r => r.store.clock

/-- **A request is put off once a day at most.**  In every run, between two times a
request was put off there is a day, so there is at most one for every day that has begun;
and whatever has the request at the end, other than the queue, a day has passed since. -/
theorem put_off_once_a_day {cfg : Settings} {cache : ResourceCollection}
    {tr : List (Sys × Act Choice EnvAct)} {s : Sys}
    (h : Run (system cfg).step (startingWith cache) tr s) (id : Uuid) :
    (putOffs tr id).Pairwise (fun a b => a + requestDelay ≤ b) ∧
      (putOffs tr id).length * requestDelay ≤ s.store.clock + requestDelay ∧
      ∀ t ∈ s.pool, id ∈ t.owned → (∀ j, t ≠ .job j) →
        ∀ a ∈ putOffs tr id, a + requestDelay ≤ s.store.clock := by
  have hpaced := (pacing cfg).paced_of_run (inv_startingWith cfg cache) h
  refine ⟨hpaced.apart id, hpaced.length_mul_le id, fun t ht hid hjob a ha => ?_⟩
  have hwaits := hpaced.waits t ht id hid a ha
  have hready : t.readyAt = 0 := by
    cases t with
    | job j => exact absurd rfl (hjob j)
    | _ => rfl
  rwa [show (pacing cfg).ready t = 0 from hready, Nat.zero_max] at hwaits

/-- The day after, a third path is fetched before the second is checked again. -/
def putOffTwice : List (Act Choice EnvAct) :=
  onePutOff ++ [.env (.tick requestDelay), .env (.create ⟨["films/1"], none⟩ [⟨4⟩] ⟨5⟩),
    .run 1 (.read 0), .run 1 .proceed, .run 1 .proceed, .run 1 .proceed, .run 1 .proceed,
    .run 1 .proceed, .run 1 .proceed, .run 2 .proceed, .run 2 (.draw ⟨6⟩), .run 2 .proceed,
    .run 0 .proceed, .run 1 .proceed, .run 1 .proceed]

theorem put_off_once_a_day_putOffTwice :
    ∃ tr s, Run (system ⟨1, "http://swapi", some⟩).step (startingWith .empty) tr s ∧
      tr.map Prod.snd = putOffTwice ∧ (putOffs tr ⟨1⟩).length = 2 ∧
      (putOffs tr ⟨1⟩).Pairwise (fun a b => a + requestDelay ≤ b) ∧
      2 * requestDelay ≤ s.store.clock + requestDelay := by
  have hexec : (execTrace (system ⟨1, "http://swapi", some⟩).step (startingWith .empty)
      putOffTwice).any (fun p => (putOffs p.1 ⟨1⟩).length = 2) = true := by
    decide +kernel
  obtain ⟨tr, s, hrun, htr, hput⟩ := exists_run_of_execTrace _ hexec
  have htwice := of_decide_eq_true hput
  obtain ⟨hapart, hbound, -⟩ := put_off_once_a_day hrun ⟨1⟩
  rw [htwice] at hbound
  exact ⟨tr, s, hrun, htr, htwice, hapart, hbound⟩

end SwapiService
