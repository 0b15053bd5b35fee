import Mathlib.Data.List.Induction
import Mathlib.Data.List.Nodup
import Mathlib.Order.Basic
import Mathlib.Order.Nat

/-!
# Logs that are trimmed when written

A sliding window is often kept as a log that is tidied up on the way: a write with the
stamp `n` first drops what has the stamp `n - W` or an earlier one, and the whole log
lapses once nothing has been written for `W`.  Writes are stamped before they are
executed, so the stamps need not be in order.  This module says what such a log holds,
as a function of what was written.

## Main definitions

* `Write` — a write: when it is executed, its stamp and its item.
* `Cleared` — what was written after a write, or a silence, has removed it.
* `held` — the writes that are still there.
* `Timely` — stamps precede executions, and executions are in order.

## Main results

* `held_snoc`, `held_later`, `held_of_silence` — what the next write does, and what time
  does.
* `filter_held` — **nothing young is missing**: of the writes less than `W` old, all are
  held.
* `length_held` — what is held is the window and what nothing has cleared.
-/

namespace TrimmedLog

variable {α : Type*} {W : ℕ}

/-- A write of an item, stamped `stamp` and executed at `time`. -/
structure Write (α : Type*) where
  time : ℕ
  stamp : ℕ
  item : α
  deriving DecidableEq, Repr

/-- The write stamped `stamp` is gone at `now`, when `last` was the time of the last write
before those listed: a write has trimmed it, or the log has lapsed. -/
def Cleared (W stamp : ℕ) : ℕ → List (Write α) → ℕ → Prop
  | last, [], now => last + W ≤ now
  | last, w :: ws, now =>
      last + W ≤ w.time ∨ stamp + W ≤ w.stamp ∨ Cleared W stamp w.time ws now

instance decidableCleared (W stamp : ℕ) :
    ∀ (last : ℕ) (ws : List (Write α)) (now : ℕ), Decidable (Cleared W stamp last ws now)
  | last, [], now => inferInstanceAs (Decidable (last + W ≤ now))
  | last, w :: ws, now =>
      have := decidableCleared W stamp w.time ws now
      inferInstanceAs (Decidable (last + W ≤ w.time ∨ stamp + W ≤ w.stamp ∨ _))

/-- The writes that are still there at `now`. -/
def held (W : ℕ) : List (Write α) → ℕ → List (Write α)
  | [], _ => []
  | w :: ws, now => if Cleared W w.stamp w.time ws now then held W ws now else w :: held W ws now

/-- The time of the last write, `last` if there is none. -/
def lastTime : ℕ → List (Write α) → ℕ
  | last, [] => last
  | _, w :: ws => lastTime w.time ws

@[simp] theorem lastTime_nil (last : ℕ) : lastTime last ([] : List (Write α)) = last := rfl

@[simp] theorem lastTime_cons (last : ℕ) (w : Write α) (ws : List (Write α)) :
    lastTime last (w :: ws) = lastTime w.time ws := rfl

@[simp] theorem lastTime_snoc (last : ℕ) (ws : List (Write α)) (w : Write α) :
    lastTime last (ws ++ [w]) = w.time := by
  induction ws generalizing last with
  | nil => rfl
  | cons v vs ih => exact ih v.time

/-! ### Writing -/

/-- One more write clears what it trims. -/
theorem cleared_snoc {stamp last now : ℕ} {ws : List (Write α)} {w : Write α} :
    Cleared W stamp last (ws ++ [w]) now ↔
      Cleared W stamp last ws w.time ∨ stamp + W ≤ w.stamp ∨ w.time + W ≤ now := by
  induction ws generalizing last with
  | nil => rfl
  | cons v vs ih =>
    show (_ ∨ _ ∨ Cleared W stamp v.time (vs ++ [w]) now) ↔ (_ ∨ _ ∨ _) ∨ _
    rw [ih, or_assoc, or_assoc]

/-- **What a write does**: it drops what has left the window of its stamp, and adds its
item. -/
theorem held_snoc (hW : 0 < W) (ws : List (Write α)) (w : Write α) :
    held W (ws ++ [w]) w.time
      = (held W ws w.time).filter (fun v => w.stamp < v.stamp + W) ++ [w] := by
  have hsilent : ¬ w.time + W ≤ w.time := by omega
  induction ws with
  | nil =>
    show (if w.time + W ≤ w.time then [] else [w]) = [w]
    rw [if_neg hsilent]
  | cons v vs ih =>
    rw [List.cons_append, held, held, ih]
    by_cases hcleared : Cleared W v.stamp v.time vs w.time
    · rw [if_pos hcleared, if_pos (cleared_snoc.mpr (.inl hcleared))]
    · by_cases htrimmed : v.stamp + W ≤ w.stamp
      · rw [if_neg hcleared, if_pos (cleared_snoc.mpr (.inr (.inl htrimmed))),
          List.filter_cons_of_neg]
        rw [decide_eq_true_eq]
        omega
      · have hkept : ¬ Cleared W v.stamp v.time (vs ++ [w]) w.time := by
          rw [cleared_snoc]
          rintro (h | h | h)
          · exact hcleared h
          · exact htrimmed h
          · exact hsilent h
        rw [if_neg hcleared, if_neg hkept, List.filter_cons_of_pos, List.cons_append]
        rw [decide_eq_true_eq]
        omega

/-! ### Time -/

/-- A long silence clears everything. -/
theorem cleared_of_silence {stamp last now : ℕ} {ws : List (Write α)}
    (h : lastTime last ws + W ≤ now) : Cleared W stamp last ws now := by
  induction ws generalizing last with
  | nil => exact h
  | cons w ws ih =>
    rw [lastTime_cons] at h
    exact .inr (.inr (ih h))

theorem held_of_silence {last now : ℕ} {ws : List (Write α)} (h : lastTime last ws + W ≤ now) :
    held W ws now = [] := by
  induction ws generalizing last with
  | nil => rfl
  | cons w ws ih =>
    rw [lastTime_cons] at h
    rw [held, if_pos (cleared_of_silence h)]
    exact ih h

/-- Until then time clears nothing. -/
theorem cleared_later {stamp last now now' : ℕ} {ws : List (Write α)} (hle : now ≤ now')
    (h : now' < lastTime last ws + W) :
    Cleared W stamp last ws now' ↔ Cleared W stamp last ws now := by
  induction ws generalizing last with
  | nil =>
    show last + W ≤ now' ↔ last + W ≤ now
    rw [lastTime_nil] at h
    omega
  | cons w ws ih =>
    rw [lastTime_cons] at h
    show (_ ∨ _ ∨ Cleared W stamp w.time ws now') ↔ (_ ∨ _ ∨ _)
    rw [ih h]

theorem held_later {last now now' : ℕ} {ws : List (Write α)} (hle : now ≤ now')
    (h : now' < lastTime last ws + W) : held W ws now' = held W ws now := by
  induction ws generalizing last with
  | nil => rfl
  | cons w ws ih =>
    rw [lastTime_cons] at h
    rw [held, held, ih h]
    simp only [cleared_later hle h]

/-! ### What is held -/

theorem held_sublist (W : ℕ) (ws : List (Write α)) (now : ℕ) : (held W ws now).Sublist ws := by
  induction ws with
  | nil => exact List.Sublist.refl _
  | cons w ws ih =>
    rw [held]
    split_ifs
    · exact ih.cons w
    · exact ih.cons_cons w

/-- A write is stamped before it is executed, and the writes are executed one after the
other, the last one by `now`. -/
structure Timely (ws : List (Write α)) (now : ℕ) : Prop where
  stamped : ∀ w ∈ ws, w.stamp ≤ w.time ∧ w.time ≤ now
  ordered : (ws.map Write.time).Pairwise (· ≤ ·)

theorem Timely.nil (now : ℕ) : Timely ([] : List (Write α)) now := by
  refine ⟨?_, List.Pairwise.nil⟩
  intro w hw
  cases hw

theorem Timely.later {ws : List (Write α)} {now now' : ℕ} (h : Timely ws now) (hle : now ≤ now') :
    Timely ws now' := by
  refine ⟨?_, h.ordered⟩
  intro w hw
  obtain ⟨hstamp, htime⟩ := h.stamped w hw
  exact ⟨hstamp, htime.trans hle⟩

theorem Timely.snoc {ws : List (Write α)} {w : Write α} (h : Timely ws w.time)
    (hw : w.stamp ≤ w.time) : Timely (ws ++ [w]) w.time := by
  refine ⟨?_, ?_⟩
  · intro v hv
    rcases List.mem_append.mp hv with hv | hv
    · exact h.stamped v hv
    · obtain rfl := List.mem_singleton.mp hv
      exact ⟨hw, le_rfl⟩
  · rw [List.map_append, List.pairwise_append]
    refine ⟨h.ordered, List.pairwise_singleton _ _, ?_⟩
    intro x hx y hy
    obtain ⟨v, hv, rfl⟩ := List.mem_map.mp hx
    obtain rfl := List.mem_singleton.mp hy
    exact (h.stamped v hv).2

/-- Nothing clears a write that is less than `W` old. -/
theorem not_cleared_of_recent {stamp last now : ℕ} {ws : List (Write α)}
    (hws : ∀ w ∈ ws, w.stamp ≤ w.time ∧ w.time ≤ now ∧ last ≤ w.time)
    (hordered : (ws.map Write.time).Pairwise (· ≤ ·)) (hstamp : stamp ≤ last)
    (hrecent : now < stamp + W) : ¬ Cleared W stamp last ws now := by
  induction ws generalizing last with
  | nil =>
    show ¬ last + W ≤ now
    omega
  | cons w ws ih =>
    obtain ⟨hwstamp, hwtime, hlast⟩ := hws w List.mem_cons_self
    rw [List.map_cons, List.pairwise_cons] at hordered
    have hrest : ¬ Cleared W stamp w.time ws now := by
      apply ih _ hordered.2 (by omega)
      intro v hv
      obtain ⟨hvstamp, hvtime, -⟩ := hws v (List.mem_cons_of_mem _ hv)
      exact ⟨hvstamp, hvtime, hordered.1 v.time (List.mem_map_of_mem hv)⟩
    rintro (h | h | h)
    · omega
    · omega
    · exact hrest h

/-- **Nothing young is missing**: the writes less than `W` old are all held. -/
theorem filter_held {ws : List (Write α)} {now : ℕ} (h : Timely ws now) :
    (held W ws now).filter (fun w => now < w.stamp + W)
      = ws.filter (fun w => now < w.stamp + W) := by
  obtain ⟨hstamped, hordered⟩ := h
  induction ws with
  | nil => rfl
  | cons w ws ih =>
    rw [List.map_cons, List.pairwise_cons] at hordered
    have hrest := ih (fun v hv => hstamped v (List.mem_cons_of_mem _ hv)) hordered.2
    by_cases hrecent : now < w.stamp + W
    · have hkept : ¬ Cleared W w.stamp w.time ws now := by
        apply not_cleared_of_recent _ hordered.2 (hstamped w List.mem_cons_self).1 hrecent
        intro v hv
        obtain ⟨hvstamp, hvtime⟩ := hstamped v (List.mem_cons_of_mem _ hv)
        exact ⟨hvstamp, hvtime, hordered.1 v.time (List.mem_map_of_mem hv)⟩
      rw [held, if_neg hkept, List.filter_cons_of_pos (by simpa using hrecent),
        List.filter_cons_of_pos (by simpa using hrecent), hrest]
    · rw [List.filter_cons_of_neg (by simpa using hrecent), ← hrest, held]
      split_ifs
      · rfl
      · exact List.filter_cons_of_neg (by simpa using hrecent)

/-- The writes that have left the window and are still there. -/
def uncleared (W : ℕ) (ws : List (Write α)) (now : ℕ) : List (Write α) :=
  (held W ws now).filter fun w => w.stamp + W ≤ now

/-- **What is held** is the window, and what nothing has cleared. -/
theorem length_held {ws : List (Write α)} {now : ℕ} (h : Timely ws now) :
    (held W ws now).length
      = (ws.filter fun w => now < w.stamp + W).length + (uncleared W ws now).length := by
  rw [← filter_held h, uncleared]
  generalize held W ws now = l
  induction l with
  | nil => rfl
  | cons w l ih =>
    by_cases hrecent : now < w.stamp + W
    · rw [List.filter_cons_of_pos (by simpa using hrecent),
        List.filter_cons_of_neg (by simpa using hrecent), List.length_cons, List.length_cons, ih]
      omega
    · rw [List.filter_cons_of_neg (by simpa using hrecent),
        List.filter_cons_of_pos (by simpa using hrecent), List.length_cons, List.length_cons, ih]
      omega

end TrimmedLog
