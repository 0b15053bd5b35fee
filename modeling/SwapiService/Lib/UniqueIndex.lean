import Mathlib.Data.List.Nodup
import Mathlib.Order.MinMax

/-!
# Collections with a unique index

A collection of documents.  Every document has an id, which the collection gives out when
the document is inserted, and a key, on which there is a unique index: a write that would
give two documents the same key is refused.

## Main definitions

* `Collection` — collections, with the constraints their writes enforce.
* `Collection.find` — the document with a key.
* `Collection.insert`, `Collection.replace` — a new document; another content for the
  document with an id.

## Main results

* `Collection.find_insert`, `Collection.insert_eq_none_iff` — what an insertion does, and
  when it is refused.
* `Collection.find_replace`, `Collection.exists_replace` — replacing what was found.
* `Collection.count_le_one` — of every key there is one document at most.
-/

namespace UniqueIndex

variable {κ β : Type*}

/-- A document. -/
structure Document (κ β : Type*) where
  id : ℕ
  key : κ
  value : β
  deriving DecidableEq, Repr

/-- A collection: ids are given out once, and keys are unique. -/
structure Collection (κ β : Type*) where
  docs : List (Document κ β)
  nextId : ℕ
  nodup_ids : (docs.map Document.id).Nodup
  nodup_keys : (docs.map Document.key).Nodup
  lt_nextId : ∀ d ∈ docs, d.id < nextId

namespace Collection

/-- The collection without a document. -/
def empty : Collection κ β := ⟨[], 0, .nil, .nil, by simp⟩

variable [DecidableEq κ]

/-- The document with the key `k`. -/
def find (c : Collection κ β) (k : κ) : Option (Document κ β) := c.docs.find? fun d => d.key = k

/-- A new document.  It is refused if there is one with the key already. -/
def insert (c : Collection κ β) (k : κ) (b : β) : Option (Collection κ β) :=
  if h : k ∈ c.docs.map Document.key then none
  else
    some
      { docs := ⟨c.nextId, k, b⟩ :: c.docs
        nextId := c.nextId + 1
        nodup_ids := by
          refine List.nodup_cons.mpr ⟨fun hid => ?_, c.nodup_ids⟩
          obtain ⟨d, hd, hid⟩ := List.mem_map.mp hid
          exact absurd hid (Nat.ne_of_lt (c.lt_nextId d hd))
        nodup_keys := List.nodup_cons.mpr ⟨h, c.nodup_keys⟩
        lt_nextId := by
          intro d hd
          rcases List.mem_cons.mp hd with rfl | hd
          · exact Nat.lt_succ_self _
          · exact Nat.lt_succ_of_lt (c.lt_nextId d hd) }

/-- The documents with another id than `i`. -/
def others (c : Collection κ β) (i : ℕ) : List (Document κ β) := c.docs.filter fun d => d.id ≠ i

/-- Another content for the document with the id `i`, or a document with that id if there is
none.  It is refused if a document with another id has the key. -/
def replace (c : Collection κ β) (i : ℕ) (k : κ) (b : β) : Option (Collection κ β) :=
  if h : k ∈ (c.others i).map Document.key then none
  else
    some
      { docs := ⟨i, k, b⟩ :: c.others i
        nextId := max c.nextId (i + 1)
        nodup_ids := by
          refine List.nodup_cons.mpr
            ⟨fun hid => ?_, c.nodup_ids.sublist (List.filter_sublist.map _)⟩
          obtain ⟨d, hd, hid⟩ := List.mem_map.mp hid
          exact of_decide_eq_true (List.mem_filter.mp hd).2 hid
        nodup_keys := List.nodup_cons.mpr ⟨h, c.nodup_keys.sublist (List.filter_sublist.map _)⟩
        lt_nextId := by
          intro d hd
          rcases List.mem_cons.mp hd with rfl | hd
          · exact lt_max_of_lt_right (Nat.lt_succ_self i)
          · exact lt_max_of_lt_left (c.lt_nextId d (List.mem_of_mem_filter hd)) }

/-! ### Reading -/

variable {c c' : Collection κ β} {k : κ} {b : β} {d : Document κ β}

theorem find_eq_some_iff : c.find k = some d ↔ d ∈ c.docs ∧ d.key = k := by
  have hkey : ∀ {e : Document κ β}, c.find k = some e → e.key = k := by
    intro e he
    simpa using List.find?_some he
  constructor
  · intro h
    exact ⟨List.mem_of_find?_eq_some h, hkey h⟩
  · rintro ⟨hd, hk⟩
    cases hfind : c.find k with
    | none =>
      have hne := List.find?_eq_none.mp hfind d hd
      exact absurd (decide_eq_true hk) hne
    | some e =>
      -- Of the documents with that key there is no other.
      rw [List.inj_on_of_nodup_map c.nodup_keys (List.mem_of_find?_eq_some hfind) hd
        ((hkey hfind).trans hk.symm)]

theorem find_eq_none_iff : c.find k = none ↔ k ∉ c.docs.map Document.key := by
  simp only [find, List.find?_eq_none, decide_eq_true_eq, List.mem_map, not_exists, not_and]

/-- **Of every key there is one document at most.** -/
theorem count_le_one (c : Collection κ β) (k : κ) : (c.docs.map Document.key).count k ≤ 1 :=
  List.nodup_iff_count_le_one.mp c.nodup_keys k

/-! ### Writing -/

/-- What is found once there is a new document for a key, and those of other keys are left. -/
theorem find_of_docs {i : ℕ} {rest : List (Document κ β)} (hdocs : c'.docs = ⟨i, k, b⟩ :: rest)
    (hrest : ∀ e, e ∈ rest ↔ e ∈ c.docs ∧ e.key ≠ k) (k' : κ) :
    c'.find k' = if k' = k then some ⟨i, k, b⟩ else c.find k' := by
  apply Option.ext
  intro e
  rw [find_eq_some_iff, hdocs, List.mem_cons, hrest]
  split_ifs with hk
  · subst hk
    constructor
    · rintro ⟨rfl | ⟨-, hne⟩, hkey⟩
      · rfl
      · exact absurd hkey hne
    · intro he
      obtain rfl := Option.some.inj he
      exact ⟨.inl rfl, rfl⟩
  · rw [find_eq_some_iff]
    constructor
    · rintro ⟨rfl | ⟨he, -⟩, hkey⟩
      · exact absurd hkey.symm hk
      · exact ⟨he, hkey⟩
    · rintro ⟨he, hkey⟩
      exact ⟨.inr ⟨he, fun heq => hk (hkey.symm.trans heq)⟩, hkey⟩

/-- **When an insertion is refused.** -/
theorem insert_eq_none_iff : c.insert k b = none ↔ c.find k ≠ none := by
  rw [ne_eq, find_eq_none_iff, not_not]
  unfold insert
  split_ifs with h
  · exact iff_of_true rfl h
  · exact iff_of_false nofun h

/-- **What an insertion does.** -/
theorem find_insert (h : c.insert k b = some c') (k' : κ) :
    c'.find k' = if k' = k then some ⟨c.nextId, k, b⟩ else c.find k' := by
  unfold insert at h
  split_ifs at h with hk
  obtain rfl := Option.some.inj h
  refine find_of_docs rfl (fun e => ?_) k'
  constructor
  · intro he
    exact ⟨he, fun heq => hk (heq ▸ List.mem_map_of_mem he)⟩
  · rintro ⟨he, -⟩
    exact he

theorem nextId_insert (h : c.insert k b = some c') : c'.nextId = c.nextId + 1 := by
  unfold insert at h
  split_ifs at h
  obtain rfl := Option.some.inj h
  rfl

/-- The other documents than the one that was found have other keys. -/
theorem mem_others_iff (h : c.find k = some d) {e : Document κ β} :
    e ∈ c.others d.id ↔ e ∈ c.docs ∧ e.key ≠ k := by
  obtain ⟨hd, hk⟩ := find_eq_some_iff.mp h
  rw [others, List.mem_filter, decide_eq_true_eq]
  refine and_congr_right fun he => not_congr ?_
  constructor
  · intro hid
    rw [List.inj_on_of_nodup_map c.nodup_ids he hd hid, hk]
  · intro hkey
    rw [List.inj_on_of_nodup_map c.nodup_keys he hd (hkey.trans hk.symm)]

/-- **What was found can be replaced.** -/
theorem exists_replace (h : c.find k = some d) (b : β) : ∃ c', c.replace d.id k b = some c' := by
  have hfree : k ∉ (c.others d.id).map Document.key := by
    rw [List.mem_map]
    rintro ⟨e, he, hk⟩
    exact ((mem_others_iff h).mp he).2 hk
  unfold replace
  rw [dif_neg hfree]
  exact ⟨_, rfl⟩

/-- **What replacing it does.** -/
theorem find_replace (h : c.find k = some d) (hs : c.replace d.id k b = some c') (k' : κ) :
    c'.find k' = if k' = k then some ⟨d.id, k, b⟩ else c.find k' := by
  unfold replace at hs
  split_ifs at hs
  obtain rfl := Option.some.inj hs
  exact find_of_docs rfl (fun e => mem_others_iff h) k'

/-- It takes no new id. -/
theorem nextId_replace (h : c.find k = some d) (hs : c.replace d.id k b = some c') :
    c'.nextId = c.nextId := by
  unfold replace at hs
  split_ifs at hs
  obtain rfl := Option.some.inj hs
  exact max_eq_left (c.lt_nextId d (find_eq_some_iff.mp h).1)

end Collection

end UniqueIndex
