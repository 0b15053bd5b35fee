import Mathlib.Algebra.Group.Nat.Defs
import Mathlib.Data.List.Induction
import Mathlib.Data.List.Nodup
import Mathlib.Data.List.Sort

/-!
# Plain JavaScript objects as accumulators

A program that groups values by a string key often folds them into an object
literal, `a[k] = a[k] || v`.  Such an object is not a dictionary: a lookup also
consults `Object.prototype`, whose own properties are truthy, assigning to
`__proto__` creates no property, and `Object.values` lists array indices first.
The values stored here are objects, hence truthy themselves.

## Main definitions

* `PlainObject α` — the own properties of an object literal, in creation order.
* `PlainObject.get`, `PlainObject.assignDefault` — `a[k]` and `a[k] = a[k] || v`.
* `PlainObject.values` — `Object.values`.
* `PlainObject.collect` — the fold.

## Main results

* `mem_collect_own`, `exists_mem_collect_own` — which values the fold keeps.
* `collected_subset`, `nodup_map_collected` — the values kept are among those
  folded, at most one for each key.
* `subset_collected_iff` — the fold keeps every value just in case the keys are
  distinct and none of them is a property of `Object.prototype`.
-/

/-- What a property holds: a value of the program, or the builtin function (for
`__proto__`, the object) that `Object.prototype` has under that name. -/
inductive PropValue (α : Type*)
  | value (a : α)
  | builtin (name : String)
  deriving DecidableEq, Repr

/-- The program's own value in a property, if that is what it holds. -/
def PropValue.value? {α : Type*} : PropValue α → Option α
  | .value a => some a
  | .builtin _ => none

/-- An object literal: its own properties, in the order of their creation. -/
structure PlainObject (α : Type*) where
  own : List (String × PropValue α)
  nodup : (own.map Prod.fst).Nodup

namespace PlainObject

variable {α : Type*}

/-- The properties of `Object.prototype`. -/
def objectPrototypeKeys : List String :=
  ["constructor", "__defineGetter__", "__defineSetter__", "hasOwnProperty", "__lookupGetter__",
    "__lookupSetter__", "isPrototypeOf", "propertyIsEnumerable", "toString", "valueOf",
    "__proto__", "toLocaleString"]

/-- The literal `{}`. -/
def empty : PlainObject α := ⟨[], List.nodup_nil⟩

/-- The own property `k`. -/
def getOwn (o : PlainObject α) (k : String) : Option (PropValue α) :=
  (o.own.find? fun p => p.1 == k).map Prod.snd

/-- The lookup `o[k]`: an own property, or else one of `Object.prototype`. -/
def get (o : PlainObject α) (k : String) : Option (PropValue α) :=
  match o.getOwn k with
  | some v => some v
  | none => if k ∈ objectPrototypeKeys then some (.builtin k) else none

theorem mem_of_getOwn {o : PlainObject α} {k : String} {v : PropValue α}
    (h : o.getOwn k = some v) : (k, v) ∈ o.own := by
  obtain ⟨⟨k', v'⟩, hfind, rfl⟩ := Option.map_eq_some_iff.mp h
  have hk : k' = k := by simpa using List.find?_some hfind
  exact hk ▸ List.mem_of_find?_eq_some hfind

theorem getOwn_eq_none {o : PlainObject α} {k : String} (h : o.getOwn k = none) :
    k ∉ o.own.map Prod.fst := by
  rw [getOwn, Option.map_eq_none_iff, List.find?_eq_none] at h
  intro hk
  obtain ⟨p, hp, rfl⟩ := List.mem_map.mp hk
  exact h p hp (by simp)

/-- Create the own property `k`. -/
def create (o : PlainObject α) (k : String) (v : PropValue α) (h : o.getOwn k = none) :
    PlainObject α :=
  ⟨o.own ++ [(k, v)], by
    rw [List.map_append, List.nodup_append']
    refine ⟨o.nodup, by simp, fun a ha ha' => ?_⟩
    obtain rfl : a = k := by simpa using ha'
    exact getOwn_eq_none h ha⟩

/-- The statement `o[k] = o[k] || v`, for an object `v`.  An own property keeps
its value.  A property inherited from `Object.prototype` is truthy, so it is its
value that becomes an own property; only `__proto__` is an accessor, and writing
the prototype back to it creates nothing. -/
def assignDefault (o : PlainObject α) (k : String) (v : α) : PlainObject α :=
  match h : o.getOwn k with
  | some _ => o
  | none =>
      if k = "__proto__" then o
      else if k ∈ objectPrototypeKeys then o.create k (.builtin k) h
      else o.create k (.value v) h

/-- The value of a canonical array index, such as `"0"` or `"17"` but not `"01"`. -/
def arrayIndex? (k : String) : Option ℕ :=
  let digits := k.toList
  let n := digits.foldl (fun n c => 10 * n + (c.toNat - '0'.toNat)) 0
  if digits ≠ [] ∧ digits.all Char.isDigit ∧ (digits = ['0'] ∨ digits.head? ≠ some '0') ∧
      n < 2 ^ 32 - 1 then some n else none

/-- `Object.values`: the array indices in ascending order, then the other
properties in the order of their creation. -/
def values (o : PlainObject α) : List (PropValue α) :=
  let indexed := o.own.filter fun p => (arrayIndex? p.1).isSome
  let named := o.own.filter fun p => !(arrayIndex? p.1).isSome
  let index := fun p : String × PropValue α => (arrayIndex? p.1).getD 0
  (indexed.insertionSort (fun p q => index p ≤ index q) ++ named).map Prod.snd

theorem values_perm (o : PlainObject α) : o.values.Perm (o.own.map Prod.snd) := by
  refine List.Perm.map _ ?_
  refine ((List.perm_insertionSort _ _).append_right _).trans ?_
  exact List.filter_append_perm _ _

/-! ### The fold -/

/-- Fold a list into an object literal, every value under its key. -/
def collect (key : α → String) (l : List α) : PlainObject α :=
  l.foldl (fun o a => o.assignDefault (key a) a) empty

/-- The values of the program among `Object.values` of the fold. -/
def collected (key : α → String) (l : List α) : List α :=
  (collect key l).values.filterMap PropValue.value?

@[simp] theorem collect_append_singleton (key : α → String) (l : List α) (a : α) :
    collect key (l ++ [a]) = (collect key l).assignDefault (key a) a := by
  simp [collect]

/-- The own properties after `o[k] = o[k] || v`. -/
theorem own_assignDefault (o : PlainObject α) (k : String) (v : α) :
    (∃ w, o.getOwn k = some w ∧ o.assignDefault k v = o) ∨
      (o.getOwn k = none ∧ k = "__proto__" ∧ o.assignDefault k v = o) ∨
      (o.getOwn k = none ∧ k ∈ objectPrototypeKeys ∧
        (o.assignDefault k v).own = o.own ++ [(k, .builtin k)]) ∨
      (o.getOwn k = none ∧ k ∉ objectPrototypeKeys ∧
        (o.assignDefault k v).own = o.own ++ [(k, .value v)]) := by
  unfold assignDefault
  split
  · next w h => exact .inl ⟨w, h, rfl⟩
  · next h =>
    split_ifs with hproto hmem
    · exact .inr (.inl ⟨h, hproto, rfl⟩)
    · exact .inr (.inr (.inl ⟨h, hmem, rfl⟩))
    · exact .inr (.inr (.inr ⟨h, hmem, rfl⟩))

/-- A value the fold keeps is one of those folded, under its own key, and that
key is no property of `Object.prototype`. -/
theorem mem_collect_own {key : α → String} {l : List α} {k : String} {a : α}
    (h : (k, .value a) ∈ (collect key l).own) :
    a ∈ l ∧ k = key a ∧ k ∉ objectPrototypeKeys := by
  induction l using List.reverseRecOn with
  | nil => simp [collect, empty] at h
  | append_singleton l b ih =>
    rw [collect_append_singleton] at h
    have hold : (k, PropValue.value a) ∈ (collect key l).own →
        a ∈ l ++ [b] ∧ k = key a ∧ k ∉ objectPrototypeKeys := fun h' => by
      obtain ⟨ha, hk⟩ := ih h'
      exact ⟨List.mem_append_left _ ha, hk⟩
    rcases own_assignDefault (collect key l) (key b) b with
      ⟨w, -, heq⟩ | ⟨-, -, heq⟩ | ⟨-, -, heq⟩ | ⟨-, hmem, heq⟩
    · exact hold (heq ▸ h)
    · exact hold (heq ▸ h)
    · rw [heq, List.mem_append, List.mem_singleton, Prod.mk.injEq] at h
      rcases h with h | ⟨-, h⟩
      · exact hold h
      · exact absurd h (by simp)
    · rw [heq, List.mem_append, List.mem_singleton, Prod.mk.injEq, PropValue.value.injEq] at h
      rcases h with h | ⟨rfl, rfl⟩
      · exact hold h
      · exact ⟨by simp, rfl, hmem⟩

/-- A builtin the fold keeps is under a key of `Object.prototype` that was folded. -/
theorem key_of_builtin {key : α → String} {l : List α} {k name : String}
    (h : (k, .builtin name) ∈ (collect key l).own) :
    k ∈ objectPrototypeKeys ∧ ∃ a ∈ l, key a = k := by
  induction l using List.reverseRecOn with
  | nil => simp [collect, empty] at h
  | append_singleton l b ih =>
    rw [collect_append_singleton] at h
    have hold : (k, PropValue.builtin name) ∈ (collect key l).own →
        k ∈ objectPrototypeKeys ∧ ∃ a ∈ l ++ [b], key a = k := by
      intro h'
      obtain ⟨hk, a, ha, hkey⟩ := ih h'
      exact ⟨hk, a, List.mem_append_left _ ha, hkey⟩
    rcases own_assignDefault (collect key l) (key b) b with
      ⟨w, -, heq⟩ | ⟨-, -, heq⟩ | ⟨-, hmem, heq⟩ | ⟨-, -, heq⟩
    · exact hold (heq ▸ h)
    · exact hold (heq ▸ h)
    · rw [heq, List.mem_append, List.mem_singleton, Prod.mk.injEq] at h
      rcases h with h | ⟨rfl, -⟩
      · exact hold h
      · exact ⟨hmem, b, by simp, rfl⟩
    · rw [heq, List.mem_append, List.mem_singleton, Prod.mk.injEq] at h
      rcases h with h | ⟨-, h⟩
      · exact hold h
      · exact absurd h (by simp)

/-- Every key that is no property of `Object.prototype` keeps some value. -/
theorem exists_mem_collect_own {key : α → String} {l : List α} {a : α} (ha : a ∈ l)
    (hk : key a ∉ objectPrototypeKeys) : ∃ b, (key a, .value b) ∈ (collect key l).own := by
  induction l using List.reverseRecOn with
  | nil => simp at ha
  | append_singleton l b ih =>
    rw [collect_append_singleton]
    have hold : a ∈ l → ∃ c, (key a, .value c) ∈ ((collect key l).assignDefault (key b) b).own := by
      intro hal
      obtain ⟨c, hc⟩ := ih hal
      refine ⟨c, ?_⟩
      rcases own_assignDefault (collect key l) (key b) b with
        ⟨w, -, heq⟩ | ⟨-, -, heq⟩ | ⟨-, -, heq⟩ | ⟨-, -, heq⟩
      · rwa [heq]
      · rwa [heq]
      · rw [heq]; exact List.mem_append_left _ hc
      · rw [heq]; exact List.mem_append_left _ hc
    rw [List.mem_append, List.mem_singleton] at ha
    rcases ha with ha | rfl
    · exact hold ha
    · rcases own_assignDefault (collect key l) (key a) a with
        ⟨w, hw, heq⟩ | ⟨-, hproto, -⟩ | ⟨-, hmem, -⟩ | ⟨-, -, heq⟩
      · -- The key is taken already, by a value: it is no key of the prototype.
        rw [heq]
        have hmem := mem_of_getOwn hw
        cases w with
        | value c => exact ⟨c, hmem⟩
        | builtin name => exact absurd (key_of_builtin hmem).1 hk
      · exact absurd (by rw [hproto]; decide) hk
      · exact absurd hmem hk
      · exact ⟨a, by rw [heq]; simp⟩

theorem mem_collected {key : α → String} {l : List α} {a : α} :
    a ∈ collected key l ↔ (key a, .value a) ∈ (collect key l).own := by
  rw [collected, List.mem_filterMap]
  constructor
  · rintro ⟨v, hv, hva⟩
    cases v with
    | builtin name => simp [PropValue.value?] at hva
    | value b =>
      obtain rfl : b = a := by simpa [PropValue.value?] using hva
      obtain ⟨⟨k, w⟩, hp, rfl⟩ := List.mem_map.mp ((values_perm _).mem_iff.mp hv)
      obtain ⟨-, rfl, -⟩ := mem_collect_own hp
      exact hp
  · intro h
    refine ⟨.value a, (values_perm _).mem_iff.mpr (List.mem_map.mpr ⟨_, h, rfl⟩), rfl⟩

/-- The values kept are among those folded. -/
theorem collected_subset (key : α → String) (l : List α) : collected key l ⊆ l :=
  fun _ ha => (mem_collect_own (mem_collected.mp ha)).1

/-- At most one value is kept for each key. -/
theorem nodup_map_collected (key : α → String) (l : List α) :
    ((collected key l).map key).Nodup := by
  -- The kept values, with their keys, are a sublist of the own properties.
  have hperm : ((collected key l).map key).Perm
      (((collect key l).own.map Prod.snd).filterMap fun v => v.value?.map key) := by
    rw [collected, List.map_filterMap]
    exact (values_perm _).filterMap _
  rw [hperm.nodup_iff, List.filterMap_map]
  have hkeys : ∀ p ∈ (collect key l).own,
      ((fun v : PropValue α => v.value?.map key) ∘ Prod.snd) p =
        if p.2.value?.isSome then some p.1 else none := by
    rintro ⟨k, v⟩ hp
    cases v with
    | builtin name => rfl
    | value a => simp [PropValue.value?, (mem_collect_own hp).2.1]
  rw [List.filterMap_congr hkeys]
  have hsub : ((collect key l).own.filterMap fun p => if p.2.value?.isSome then some p.1 else none)
      = ((collect key l).own.filter fun p => p.2.value?.isSome).map Prod.fst := by
    rw [← List.filterMap_eq_map, List.filterMap_filter]
    rfl
  rw [hsub]
  exact (collect key l).nodup.sublist (List.filter_sublist.map _)

/-- Without keys of `Object.prototype` there is nothing but values. -/
theorem values_collect {key : α → String} {l : List α}
    (h : ∀ a ∈ l, key a ∉ objectPrototypeKeys) :
    (collect key l).values = (collected key l).map .value := by
  have hvalue : ∀ v ∈ (collect key l).values, v.value?.map PropValue.value = some v := by
    intro v hv
    obtain ⟨⟨k, w⟩, hp, rfl⟩ := List.mem_map.mp ((values_perm _).mem_iff.mp hv)
    cases w with
    | value a => rfl
    | builtin name =>
      obtain ⟨hk, a, ha, rfl⟩ := key_of_builtin hp
      exact absurd hk (h a ha)
  rw [collected, List.map_filterMap, List.filterMap_congr hvalue, List.filterMap_some]

/-- **When the fold keeps everything**: just in case the keys are distinct and
none of them is a property of `Object.prototype`. -/
theorem subset_collected_iff {key : α → String} {l : List α} (hl : l.Nodup) :
    l ⊆ collected key l ↔ (l.map key).Nodup ∧ ∀ a ∈ l, key a ∉ objectPrototypeKeys := by
  constructor
  · intro h
    refine ⟨hl.map_on fun a ha b hb hab => ?_,
      fun a ha => (mem_collect_own (mem_collected.mp (h ha))).2.2⟩
    exact List.inj_on_of_nodup_map (nodup_map_collected key l) (h ha) (h hb) hab
  · rintro ⟨hnd, hproto⟩ a ha
    obtain ⟨b, hb⟩ := exists_mem_collect_own ha (hproto a ha)
    obtain ⟨hbl, hkey, -⟩ := mem_collect_own hb
    obtain rfl : a = b := List.inj_on_of_nodup_map hnd ha hbl hkey
    exact mem_collected.mpr hb

end PlainObject
