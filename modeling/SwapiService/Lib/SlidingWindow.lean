import Mathlib.Data.List.Count
import Mathlib.Order.Basic
import Mathlib.Order.Nat

/-!
# Sliding windows

A limiter lets at most `L` events happen in any `W` consecutive units of time.  An event
is first *admitted* and happens some time later, so what has to be kept bounded, at
every moment, is the number of events less than `W` old together with those admitted
and still to happen.

Times are natural numbers, and a window is half open: it starts at `t` and ends before
`t + W`.

## Main definitions

* `since`, `within`, `recent` — the events from a time on, inside a window, and less
  than `W` old.
* `Bounded` — the invariant of such a limiter.

## Main results

* `Bounded.later`, `Bounded.admit`, `Bounded.happen`, `Bounded.withdraw` — what keeps it.
* `exceeded_of_recent` — without the invariant some window is overfull as soon as the
  events admitted happen.
-/

namespace SlidingWindow

variable {W L now pending : ℕ} {times : List ℕ}

/-- The events at `t` or later. -/
def since (times : List ℕ) (t : ℕ) : ℕ := times.countP fun x => t ≤ x

/-- The events in the window that starts at `t`. -/
def within (W : ℕ) (times : List ℕ) (t : ℕ) : ℕ := times.countP fun x => t ≤ x ∧ x < t + W

/-- The events that are less than `W` old. -/
def recent (W now : ℕ) (times : List ℕ) : ℕ := times.countP fun x => now < x + W

@[simp] theorem since_append (xs ys : List ℕ) (t : ℕ) :
    since (xs ++ ys) t = since xs t + since ys t := List.countP_append

@[simp] theorem within_append (W : ℕ) (xs ys : List ℕ) (t : ℕ) :
    within W (xs ++ ys) t = within W xs t + within W ys t := List.countP_append

@[simp] theorem recent_append (W now : ℕ) (xs ys : List ℕ) :
    recent W now (xs ++ ys) = recent W now xs + recent W now ys := List.countP_append

@[simp] theorem since_singleton (x t : ℕ) : since [x] t = if t ≤ x then 1 else 0 := by
  simp [since, List.countP_cons]

@[simp] theorem within_singleton (W x t : ℕ) :
    within W [x] t = if t ≤ x ∧ x < t + W then 1 else 0 := by
  simp [within, List.countP_cons]

/-- Events that happen now are recent. -/
theorem recent_replicate (hW : 0 < W) (n : ℕ) : recent W now (List.replicate n now) = n := by
  unfold recent
  rw [List.countP_replicate, if_pos]
  exact decide_eq_true (by omega)

theorem within_le_since (W : ℕ) (times : List ℕ) (t : ℕ) : within W times t ≤ since times t := by
  unfold within since
  apply List.countP_mono_left
  intro x _ hx
  simp only [decide_eq_true_eq] at hx ⊢
  exact hx.1

/-- In a window that is still open all events are recent. -/
theorem since_le_recent {t : ℕ} (ht : now < t + W) : since times t ≤ recent W now times := by
  unfold since recent
  apply List.countP_mono_left
  intro x _ hx
  simp only [decide_eq_true_eq] at hx ⊢
  omega

/-- The recent events are those since the window that ends now began. -/
theorem recent_le_since : recent W now times ≤ since times (now + 1 - W) := by
  unfold recent since
  apply List.countP_mono_left
  intro x _ hx
  simp only [decide_eq_true_eq] at hx ⊢
  omega

/-- The recent events are those of the window that ends now. -/
theorem recent_le_within (hpast : ∀ x ∈ times, x ≤ now) :
    recent W now times ≤ within W times (now + 1 - W) := by
  unfold recent within
  apply List.countP_mono_left
  intro x hx hrecent
  have hle := hpast x hx
  simp only [decide_eq_true_eq] at hrecent ⊢
  omega

/-- **The invariant of a limiter**, `pending` events being admitted that have not
happened yet. -/
structure Bounded (W L now pending : ℕ) (times : List ℕ) : Prop where
  past : ∀ x ∈ times, x ≤ now
  live : ∀ t, now < t + W → since times t + pending ≤ L
  windows : ∀ t, within W times t ≤ L

theorem Bounded.nil (W L now : ℕ) : Bounded W L now 0 [] := by
  refine ⟨?_, fun _ _ => Nat.zero_le L, fun _ => Nat.zero_le L⟩
  intro x hx
  cases hx

/-- Time passes. -/
theorem Bounded.later (h : Bounded W L now pending times) {now' : ℕ} (hle : now ≤ now') :
    Bounded W L now' pending times := by
  refine ⟨fun x hx => ?_, fun t ht => ?_, h.windows⟩
  · have hx := h.past x hx
    omega
  · exact h.live t (by omega)

/-- One more event is admitted, the limit not being reached. -/
theorem Bounded.admit (h : Bounded W L now pending times)
    (hlt : recent W now times + pending < L) : Bounded W L now (pending + 1) times := by
  refine ⟨h.past, fun t ht => ?_, h.windows⟩
  -- What an open window holds is recent.
  have hle : since times t ≤ recent W now times := since_le_recent ht
  omega

/-- Events that were admitted will not happen. -/
theorem Bounded.withdraw (h : Bounded W L now pending times) {pending' : ℕ}
    (hle : pending' ≤ pending) : Bounded W L now pending' times := by
  refine ⟨h.past, fun t ht => ?_, h.windows⟩
  have hlive := h.live t ht
  omega

/-- An event that was admitted happens now. -/
theorem Bounded.happen (h : Bounded W L now (pending + 1) times) :
    Bounded W L now pending (times ++ [now]) := by
  have hlive : ∀ t, now < t + W → since (times ++ [now]) t + pending ≤ L := by
    intro t ht
    have hbefore := h.live t ht
    rw [since_append, since_singleton]
    split_ifs <;> omega
  refine ⟨fun x hx => ?_, hlive, fun t => ?_⟩
  · rw [List.mem_append, List.mem_singleton] at hx
    rcases hx with hx | rfl
    · exact h.past x hx
    · exact Nat.le_refl x
  · by_cases ht : now < t + W
    · -- The window is still open: it holds what has happened since it opened.
      have hle := within_le_since W (times ++ [now]) t
      have hbound := hlive t ht
      omega
    · -- The window has ended before the event.
      rw [within_append, within_singleton, if_neg (by omega)]
      exact h.windows t

/-- More than `L` recent events overfill the window that ends now. -/
theorem exceeded_of_recent (hpast : ∀ x ∈ times, x ≤ now) (hlt : L < recent W now times) :
    ∃ t, L < within W times t :=
  ⟨now + 1 - W, Nat.lt_of_lt_of_le hlt (recent_le_within hpast)⟩

end SlidingWindow
